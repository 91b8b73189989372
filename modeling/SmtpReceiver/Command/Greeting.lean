import SmtpReceiver.Command.Basic
import SmtpReceiver.Extension

/-!
# The commands HELO, EHLO and HELP

`HELO` may be repeated.  `EHLO` may not, neither after itself nor after `HELO`.
It lists the extensions that the connection has at this moment.  TLS is listed
while it can still be started, and authentication if there is a mechanism.
Both are listed only if their command is in the table.

`HELP` shows the text about a topic, or the topics.
-/

namespace SmtpReceiver.Command

open Auth (Authenticator)

variable {α δ : Type}

/-- The arguments of both greetings. -/
def hostArgument : String := "<hostname>\nhostname = your hostname"

/-- Greets. -/
def helo : Command α δ where
  name := Verb.helo
  needsAuthentication := false
  help := some
    ⟨Verb.helo, hostArgument, "The HELO command posts the client hostname info to the server."⟩
  run _ line s :=
    if (CommandLine.arguments line).length < 2 then
      s.say .badArguments "Syntax: HELO <hostname>"
    else
      Session.say { s with progress := s.progress.mark (.greeted true) } .ok s.settings.hostName

/-- The extensions of a connection at this moment. -/
def extensions [Authenticator α] (dir : Directory) (s : Session α δ) : List Extension :=
  let tls := s.offersTls && !s.peer.secure && dir.verbs.contains Verb.startTls
  let mechanisms := Authenticator.mechanisms s.auth
  let auth := dir.verbs.contains Verb.auth && !mechanisms.isEmpty
  [.eightBitMime] ++ (if tls then [.startTls] else []) ++ (if auth then [.auth mechanisms] else [])

/-- Greets, and asks for the extensions. -/
def ehlo [Authenticator α] : Command α δ where
  name := Verb.ehlo
  needsAuthentication := false
  help := some
    ⟨Verb.ehlo, hostArgument,
      "The EHLO command posts the client hostname info to the server.\n"
      ++ "This extended version of the HELO command will return hints about\n"
      ++ "the extended commands available on the local server."⟩
  run dir line s :=
    match CommandLine.arguments line with
    | _ :: host :: _ =>
      if s.progress.greeted then s.say .badSequence (host ++ " Duplicate EHLO")
      else
        Session.answer { s with progress := s.progress.mark (.greeted true) }
          ⟨.ok, [s.settings.hostName] ++ (extensions dir s).map Extension.text ++ ["Ok"]⟩
    | _ => s.say .badArguments "Syntax: EHLO hostname"

/-- Asks for help. -/
def helpMe : Command α δ where
  name := Verb.help
  needsAuthentication := false
  help := some
    ⟨Verb.help, "[ <topic> ]\ntopic = the command to describe",
      "The HELP command gives help info about the topic specified.\n"
      ++ "For a list of topics, type HELP by itself."⟩
  run dir line s :=
    let topic := CommandLine.predicate line
    if topic = "" then s.answer (dir.help.summary s.settings)
    else match dir.help.topic? topic with
      | some text => s.answer text.reply
      | none => s.say .notSupported ("HELP topic \"" ++ topic ++ "\" unknown")

end SmtpReceiver.Command
