import SmtpReceiver.Command.Basic

/-!
# The command AUTH

`AUTH` begins an exchange, and while the exchange is under way every line of
the client comes here.  A lone asterisk cancels it.  A line that begins an
exchange must name a mechanism that the authenticator has.

A challenge keeps the exchange under way.  Success makes the user known to the
peer.  A fault ends the exchange, and the authenticator forgets it.
-/

namespace SmtpReceiver.Command

open Auth (Authenticator)

variable {α δ : Type} [Authenticator α]

/-- The line by which a client cancels an exchange. -/
def cancelLine : String := "*"

/-- Cancels the exchange. -/
def cancelExchange (s : Session α δ) : Outcome α δ :=
  let t := Authenticator.reset s.auth
  { session := { s with progress := s.progress.mark (.authenticating false), auth := t.next }
    answer := .ok (.line .badArguments "Authentication canceled by client")
    calls := t.calls.map .auth }

/-- Gives a line to the authenticator. -/
def exchange (s : Session α δ) (line : String) : Outcome α δ :=
  let t := Authenticator.answer s.auth line
  match t.result with
  | .ok (.challenge text) =>
    { session := { s with progress := s.progress.mark (.authenticating true), auth := t.next }
      answer := .ok (.line .challenge text)
      calls := t.calls.map .auth }
  | .ok (.done user) =>
    { session :=
        { s with
          progress := (s.progress.mark (.authenticating false)).mark (.authenticated true)
          auth := t.next
          peer := { s.peer with user := some user } }
      answer := .ok (.line .authenticated "Authentication successful")
      calls := t.calls.map .auth }
  | .error fault =>
    let r := Authenticator.reset t.next
    { session :=
        { s with
          progress := (s.progress.mark (.authenticating false)).mark (.authenticated false)
          auth := r.next }
      answer := .ok fault.reply
      calls := (t.calls ++ r.calls).map .auth }

/-- Begins an exchange. -/
def beginExchange (s : Session α δ) (line : String) : Outcome α δ :=
  match CommandLine.arguments line with
  | _ :: mechanism :: _ =>
    if (Authenticator.mechanisms s.auth).contains (Text.upper mechanism) then exchange s line
    else s.say .notSupported "Unrecognized authentication type"
  | _ => s.say .badArguments "Syntax: AUTH mechanism [initial-response]"

/-- Authenticates. -/
def auth : Command α δ where
  name := Verb.auth
  needsAuthentication := false
  help := some
    ⟨Verb.auth,
      "<mechanism> [<initial-response>]\n"
      ++ "mechanism = a string identifying a SASL authentication mechanism,\n"
      ++ "initial-response = an optional base64-encoded response",
      "The AUTH command allows to select the authentication mechanism to use\n"
      ++ "when authenticating with the server."⟩
  run _ line s :=
    if s.progress.authenticated then s.say .badSequence "Refusing any other AUTH command"
    else if s.progress.authenticating then
      if Text.trim line = cancelLine then cancelExchange s else exchange s line
    else beginExchange s line

end SmtpReceiver.Command
