import SmtpReceiver.Command.Authenticate
import SmtpReceiver.Command.Control
import SmtpReceiver.Command.Envelope
import SmtpReceiver.Command.Greeting
import SmtpReceiver.Command.Prepared

/-!
# The table of commands

A `CommandTable` finds commands by their verbs in raised letters.  Adding a
command replaces one of the same verb, so the command added last answers.
`builtin` holds the commands of the receiver.

The directory of a table lists its verbs and the help texts of its commands.
Where two commands have help texts of one name, the command whose verb comes
later counts.
-/

namespace SmtpReceiver

open Auth (Authenticator)
open Delivery (Handler)
open Text (Lookup upper)

/-- Commands by their verbs in raised letters. -/
abbrev CommandTable (α δ : Type) := Lookup (Command α δ)

namespace CommandTable

variable {α δ : Type}

/-- Adds a command, in place of one of the same verb. -/
def add (t : CommandTable α δ) (c : Command α δ) : CommandTable α δ :=
  Lookup.insert (upper c.name) c t

/-- Removes the command of a verb, whatever the case of its letters. -/
def remove (t : CommandTable α δ) (verb : String) : CommandTable α δ :=
  Lookup.erase (upper verb) t

/-- The command of a verb in raised letters. -/
def command? (t : CommandTable α δ) (verb : String) : Option (Command α δ) :=
  Lookup.get? verb t

/-- The verbs, in rising order. -/
def verbs (t : CommandTable α δ) : List String := Lookup.names t

/-- The help texts of the commands. -/
def help (t : CommandTable α δ) : HelpTable :=
  .ofTexts (t.filterMap fun e => e.2.help)

/-- What a command of the table may know of the others. -/
def directory (t : CommandTable α δ) : Directory := ⟨t.verbs, t.help⟩

/-- The commands of the receiver. -/
def builtinCommands [Authenticator α] [Handler δ] : List (Command α δ) :=
  [.helo, .ehlo, .mail, .rcpt, .data, .dataEnd, .rset, .noop, .quit, .helpMe, .auth, .startTls]

/-- The table of the commands of the receiver. -/
def builtin [Authenticator α] [Handler δ] : CommandTable α δ := builtinCommands.foldl add []

end CommandTable

end SmtpReceiver
