import SmtpReceiver.Auth.Basic
import SmtpReceiver.Auth.Mechanism
import SmtpReceiver.Text.Base64

/-!
# The mechanism PLAIN

The response is an authorization identity, a user name and a password, with a
NUL between them, in base64.  It comes with the command, or in a line after an
empty challenge.  The password may hold further NULs.  The authorization
identity is not used.

PLAIN has no state between lines.
-/

namespace SmtpReceiver.Auth

open Text

/-- The bytes before the first NUL and those behind it. -/
def splitNul? : Bytes → Option (Bytes × Bytes)
  | [] => none
  | b :: bs => if b = 0 then some ([], bs) else (splitNul? bs).map fun p => (b :: p.1, p.2)

/-- The user name and the password of a response. -/
def plainSecret? [Base64] (response : String) : Option (String × String) := do
  let bytes ← Base64.decode? response
  let (_, rest) ← splitNul? bytes
  let (user, password) ← splitNul? rest
  some (decode user, decode password)

/-- The mechanism PLAIN over a validator. -/
structure Plain where
  /-- Checks user name and password. -/
  validator : Validator

namespace Plain

def check [Base64] (p : Plain) (response : String) : Turn Call Plain Answer :=
  match plainSecret? response with
  | none => ⟨.error .failed, p, []⟩
  | some (user, password) =>
    if p.validator user password then ⟨.ok (.done user), p, [.login user password true]⟩
    else ⟨.error .failed, p, [.login user password false]⟩

def answer [Base64] (p : Plain) (line : String) : Turn Call Plain Answer :=
  match authLine? line with
  | some (mechanism, rest) =>
    if Mechanism.ofName? mechanism ≠ some .plain then ⟨.error .mechanismMismatch, p, []⟩
    else match rest with
      | response :: _ => p.check response
      | [] => ⟨.ok (.challenge ""), p, []⟩
  | none => p.check (trim line)

instance [Base64] : Authenticator Plain where
  mechanisms _ := [Mechanism.name .plain]
  answer := answer
  reset p := ⟨(), p, []⟩

end Plain

end SmtpReceiver.Auth
