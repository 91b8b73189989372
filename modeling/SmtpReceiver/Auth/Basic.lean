import SmtpReceiver.Reply
import SmtpReceiver.Text.Ascii
import SmtpReceiver.Text.Blank
import SmtpReceiver.Turn

/-!
# Authentication

A client authenticates by an exchange of lines.  The first is the `AUTH`
command, and each line is answered by a challenge, by success, or by a fault
that ends the exchange.

An `Authenticator` is a state that takes part in such exchanges.  It says which
mechanisms it has, answers one line, and can be told to forget the exchange it
is in.  `authLine?` tells the line that begins an exchange from the lines that
continue it.
-/

namespace SmtpReceiver.Auth

open Text

/-- How a line is answered that does not end in a fault. -/
inductive Step where
  /-- The exchange goes on, with a text for the client. -/
  | challenge (text : String)
  /-- The client is this user. -/
  | done (user : String)
deriving DecidableEq, Repr

/-- Why an exchange ended without success. -/
inductive Fault where
  /-- The client sent no proper response, or not the right one. -/
  | failed
  /-- No mechanism takes this line. -/
  | mechanismMismatch
  /-- The mechanism takes no response with the command. -/
  | initialResponseNotAllowed
deriving DecidableEq, Repr

def Fault.message : Fault → String
  | failed => "Authentication failure"
  | mechanismMismatch => "AUTH mechanism mismatch"
  | initialResponseNotAllowed => "Initial response not allowed in AUTH LOGIN"

/-- What the client is told of a fault. -/
def Fault.reply (f : Fault) : Reply :=
  match f with
  | failed | initialResponseNotAllowed => .line .authenticationFailed f.message
  | mechanismMismatch => .line .notSupported f.message

/-- The answer to a line. -/
abbrev Answer := Except Fault Step

/-- Whether the exchange goes on after an answer. -/
def isChallenge : Answer → Bool
  | .ok (.challenge _) => true
  | _ => false

/-- One call of an authenticator. -/
inductive Call where
  /-- A user name and a password were checked. -/
  | login (user password : String) (accepted : Bool)
  /-- A mechanism of the application was given a line. -/
  | mechanism (name input : String)
  /-- A mechanism of the application was told to start anew. -/
  | mechanismReset (name : String)
deriving DecidableEq, Repr

/-- A state that takes part in exchanges. -/
class Authenticator (α : Type) where
  mechanisms : α → List String
  answer : α → String → Turn Call α Answer
  /-- Forgets the exchange. -/
  reset : α → Turn Call α Unit

/-- Checks a user name and a password. -/
abbrev Validator := String → String → Bool

/-- The mechanism, its letters raised, and the words behind it, if a line begins an exchange. -/
def authLine? (line : String) : Option (String × List String) :=
  match words line with
  | [] => none
  | verb :: rest =>
    if sameFold verb "AUTH" then some (upper (rest.headD ""), rest.tail) else none

/-! ## Choices -/

variable {α β : Type}

/-- One of two kinds of authenticator is one. -/
instance [Authenticator α] [Authenticator β] : Authenticator (α ⊕ β) where
  mechanisms
    | .inl a => Authenticator.mechanisms a
    | .inr b => Authenticator.mechanisms b
  answer
    | .inl a, line => (Authenticator.answer a line).lift .inl
    | .inr b, line => (Authenticator.answer b line).lift .inr
  reset
    | .inl a => (Authenticator.reset a).lift .inl
    | .inr b => (Authenticator.reset b).lift .inr

end SmtpReceiver.Auth
