import SmtpReceiver.Command.Table
import SmtpReceiver.Framing.Decoder

/-!
# From frames to commands

A message becomes the pending message of the session, and the command of its
end runs.  A line goes to `AUTH` while an exchange is under way, whatever it
says, and to the command of its verb otherwise.

A command that needs authentication is refused to a client that has not
authenticated, as long as there is a mechanism by which it could.
-/

namespace SmtpReceiver.CommandTable

open Auth (Authenticator)
open Framing (Frame)

variable {α δ : Type} [Authenticator α]

/-- Runs the command of a verb on a line. -/
def run (t : CommandTable α δ) (verb line : String) (s : Session α δ) : Outcome α δ :=
  match t.command? verb with
  | none => s.say .notUnderstood "Command not implemented"
  | some c =>
    if c.needsAuthentication && s.mustAuthenticate then
      s.say .authenticateFirst "Authentication required"
    else c.run t.directory line s

def dispatchLine (t : CommandTable α δ) (line : String) (s : Session α δ) : Outcome α δ :=
  if s.progress.authenticating then t.run Verb.auth line s
  else match CommandLine.verb? line with
    | none => s.say .notUnderstood CommandLine.noVerb
    | some verb => t.run verb line s

def dispatch (t : CommandTable α δ) (frame : Frame) (s : Session α δ) : Outcome α δ :=
  match frame with
  | .line text => t.dispatchLine text s
  | .message m => t.run Verb.dataEnd Verb.dataEnd { s with pending := some m }

end SmtpReceiver.CommandTable
