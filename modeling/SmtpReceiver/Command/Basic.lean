import SmtpReceiver.Command.HelpText
import SmtpReceiver.CommandLine
import SmtpReceiver.Session

/-!
# Commands

A `Command` answers the lines that begin with its verb.  It says whether a
client has to authenticate before using it, and how to use it, and what it does
to a session.

Some commands tell the client about others.  A `Directory` is what a command
may know about the table it is in: the verbs and the help texts.
-/

namespace SmtpReceiver

/-- What a command may know of the others. -/
structure Directory where
  /-- The verbs, in rising order. -/
  verbs : List String
  /-- The help texts. -/
  help : HelpTable

/-- A command. -/
structure Command (α δ : Type) where
  /-- The verb. -/
  name : String
  /-- The client has to authenticate first. -/
  needsAuthentication : Bool := true
  /-- How to use the command. -/
  help : Option HelpText := none
  /-- What the command does with a line. -/
  run : Directory → String → Session α δ → Outcome α δ

namespace Verb

/-- Authenticates. -/
def auth : String := "AUTH"
/-- Begins a message. -/
def data : String := "DATA"
/-- Ends a message.  The receiver gives this command to itself. -/
def dataEnd : String := "DATA_END"
/-- Greets, and asks for the extensions. -/
def ehlo : String := "EHLO"
/-- Greets. -/
def helo : String := "HELO"
/-- Asks for help. -/
def help : String := "HELP"
/-- Names the sender. -/
def mail : String := "MAIL"
/-- Does nothing. -/
def noop : String := "NOOP"
/-- Ends the session. -/
def quit : String := "QUIT"
/-- Names a recipient. -/
def rcpt : String := "RCPT"
def rset : String := "RSET"
/-- Starts TLS. -/
def startTls : String := "STARTTLS"

end Verb

end SmtpReceiver
