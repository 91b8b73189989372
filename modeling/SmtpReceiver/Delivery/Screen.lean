import SmtpReceiver.Delivery.Basic

/-!
# Refusals by list

A `Screen` stands before another delivery handler.  It refuses the senders and
the recipients on its lists itself, each in its own words, and hands everything
else on.  Of two entries for one address the first counts.
-/

namespace SmtpReceiver.Delivery

/-- Lists of addresses to refuse, before another handler. -/
structure Screen (δ : Type) where
  /-- Senders, each with its refusal. -/
  senders : List (String × Rejection) := []
  /-- Recipients, each with its refusal. -/
  recipients : List (String × Rejection) := []
  /-- The handler behind the lists. -/
  inner : δ

namespace Screen

variable {δ : Type} [Handler δ]

/-- Refuses an address on a list, and hands any other one on. -/
def screened (s : Screen δ) (list : List (String × Rejection)) (address : String)
    (handOn : Turn Call δ (Except Rejection Unit)) : Turn Call (Screen δ) (Except Rejection Unit) :=
  match list.lookup address with
  | some rejection => ⟨.error rejection, s, []⟩
  | none => handOn.lift fun inner => { s with inner }

instance : Handler (Screen δ) where
  sender s peer address := s.screened s.senders address (Handler.sender s.inner peer address)
  recipient s peer address :=
    s.screened s.recipients address (Handler.recipient s.inner peer address)
  message s peer m := (Handler.message s.inner peer m).lift fun inner => { s with inner }
  reset s := { s with inner := Handler.reset s.inner }

end Screen

end SmtpReceiver.Delivery
