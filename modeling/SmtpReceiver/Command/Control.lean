import SmtpReceiver.Command.Basic

/-!
# The commands NOOP, QUIT, RSET and STARTTLS

`STARTTLS` takes no argument, and is refused if the session is secure already
or cannot be made so.  If it is accepted, everything that the client has said
is forgotten, and the connection starts TLS right after the reply.
-/

namespace SmtpReceiver.Command

open Auth (Authenticator)
open Delivery (Handler)

variable {α δ : Type}

/-- Does nothing. -/
def noop : Command α δ where
  name := Verb.noop
  needsAuthentication := false
  help := some ⟨Verb.noop, "", "This command does nothing."⟩
  run _ _ s := s.say .ok "Ok"

/-- Ends the session. -/
def quit : Command α δ where
  name := Verb.quit
  needsAuthentication := false
  help := some ⟨Verb.quit, "", "Exit the SMTP session."⟩
  run _ _ s := Session.say { s with progress := s.progress.mark .quit } .closing "Bye"

def rset [Handler δ] : Command α δ where
  name := Verb.rset
  needsAuthentication := false
  help := some ⟨Verb.rset, "", "Resets the system to the state after the last HELO/EHLO."⟩
  run _ _ s := s.reset.say .ok "Ok"

/-- Starts TLS. -/
def startTls [Authenticator α] [Handler δ] : Command α δ where
  name := Verb.startTls
  needsAuthentication := false
  help := some
    ⟨Verb.startTls, "",
      "The STARTTLS command starts a secured connection for the current\nSMTP session."⟩
  run _ line s :=
    if Text.hasBlank (Text.trim line) then
      s.say .badArguments "Syntax error (no parameters allowed)"
    else if s.peer.secure then
      s.say .noTls "TLS not available due to temporary reason: TLS already active"
    else if !s.offersTls then
      s.say .noTls "TLS not available due to temporary reason: TLS not configured"
    else
      let t := s.forget
      { session := { t.next with wantsTls := true }
        answer := .ok (.line .ready "Ready to start TLS")
        calls := t.calls }

end SmtpReceiver.Command
