import SmtpReceiver.Delivery.Refusal
import SmtpReceiver.Message
import SmtpReceiver.Peer
import SmtpReceiver.Turn

/-!
# Delivery

A delivery handler is told the sender, each recipient and the message of a mail
transaction.  It may refuse a sender or a recipient, and the session goes on.
It may also fail to deliver a message, and for some faults that ends the
session.

`reset` ends the transaction.  The next sender begins a new one.
-/

namespace SmtpReceiver.Delivery

open Text (Bytes)

/-- One call of a delivery handler. -/
inductive Call where
  /-- A listener was asked whether it wants mail for a recipient. -/
  | accept (listener : Nat) (peer : Peer) (sender recipient : String) (accepted : Bool)
  /-- A listener was given a message to read, read these bytes of it, and ended with this fault. -/
  | deliver (listener : Nat) (peer : Peer) (sender recipient : String) (m : Message) (bytes : Bytes)
      (fault? : Option Fault)
deriving DecidableEq, Repr

/-- A state that takes part in mail transactions. -/
class Handler (δ : Type) where
  /-- Takes the sender. -/
  sender : δ → Peer → String → Turn Call δ (Except Rejection Unit)
  /-- Takes a recipient. -/
  recipient : δ → Peer → String → Turn Call δ (Except Rejection Unit)
  /-- Takes the message. -/
  message : δ → Peer → Message → Turn Call δ (Except Fault Unit)
  /-- Ends the transaction. -/
  reset : δ → δ

end SmtpReceiver.Delivery
