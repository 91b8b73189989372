import SmtpReceiver.Text.Ascii

/-!
# The mechanisms of the receiver

The receiver itself has `PLAIN`, where one response holds both halves, and
`LOGIN`, where user name and password come in two lines.
-/

namespace SmtpReceiver.Auth

open Text (sameFold)

/-- A mechanism of the receiver. -/
inductive Mechanism where
  /-- Both halves in one response. -/
  | plain
  /-- Two lines. -/
  | login
deriving DecidableEq, Repr

namespace Mechanism

def name : Mechanism → String
  | plain => "PLAIN"
  | login => "LOGIN"

/-- The mechanism of a name, but for the case of its letters. -/
def ofName? (s : String) : Option Mechanism := [plain, login].find? fun m => sameFold m.name s

end Mechanism

end SmtpReceiver.Auth
