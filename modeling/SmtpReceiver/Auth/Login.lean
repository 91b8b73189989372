import SmtpReceiver.Auth.Basic
import SmtpReceiver.Auth.Mechanism
import SmtpReceiver.Text.Base64

/-!
# The mechanism LOGIN

The command is answered by a prompt for the user name, and that by a prompt for
the password.  Prompts and responses are in base64.  The command takes no
response of its own.

Between the two responses the user name is kept.
-/

namespace SmtpReceiver.Auth

open Text

/-- The text of a response line. -/
def loginResponse? [Base64] (line : String) : Option String :=
  (Base64.decode? (trim line)).map decode

/-- A prompt as it is sent. -/
def loginPrompt [Base64] (text : String) : Answer := .ok (.challenge (Base64.encode (encode text)))

/-- The mechanism LOGIN over a validator. -/
structure Login where
  /-- Checks user name and password. -/
  validator : Validator
  /-- The user name, once it was given. -/
  user : Option String := none

namespace Login

def clear (l : Login) : Login := { l with user := none }

def answer [Base64] (l : Login) (line : String) : Turn Call Login Answer :=
  match authLine? line with
  | some (mechanism, rest) =>
    if Mechanism.ofName? mechanism ≠ some .login then ⟨.error .mechanismMismatch, l, []⟩
    else if rest ≠ [] then ⟨.error .initialResponseNotAllowed, l, []⟩
    else ⟨loginPrompt "Username:", l.clear, []⟩
  | none =>
    match loginResponse? line, l.user with
    | none, _ => ⟨.error .failed, l.clear, []⟩
    | some text, none => ⟨loginPrompt "Password:", { l with user := some text }, []⟩
    | some text, some user =>
      if l.validator user text then ⟨.ok (.done user), l.clear, [.login user text true]⟩
      else ⟨.error .failed, l.clear, [.login user text false]⟩

instance [Base64] : Authenticator Login where
  mechanisms _ := [Mechanism.name .login]
  answer := answer
  reset l := ⟨(), l.clear, []⟩

end Login

end SmtpReceiver.Auth
