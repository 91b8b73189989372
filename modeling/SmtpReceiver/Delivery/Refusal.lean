import SmtpReceiver.Failure

/-!
# Refusals

A sender, a recipient or a message may be refused by a `Rejection`, which the
client is told word for word.  A message can also be too large, or its delivery
can break down.
-/

namespace SmtpReceiver.Delivery

/-- A refusal in the words of whoever refuses. -/
structure Rejection where
  /-- The code of the reply. -/
  code : ReplyCode
  /-- The text of the reply. -/
  text : String
deriving DecidableEq, Repr

namespace Rejection

/-- The wording of a rejection. -/
def message (r : Rejection) : String := Reply.codeText r.code ++ " " ++ r.text

/-- What the client is told. -/
def reply (r : Rejection) : Reply := .line r.code r.text

end Rejection

/-- Why a message was not delivered. -/
inductive Fault where
  /-- It is too large. -/
  | tooMuchData
  /-- It was refused. -/
  | rejected (rejection : Rejection)
  /-- Input or output failed. -/
  | io (cause : IoFailure)
deriving DecidableEq, Repr

def Fault.message : Fault → String
  | tooMuchData => "Too much mail data"
  | rejected r => r.message
  | io cause => "I/O error: " ++ cause.text

end SmtpReceiver.Delivery
