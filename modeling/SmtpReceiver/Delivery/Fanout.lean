import SmtpReceiver.Delivery.Listener

/-!
# Delivery to listeners

The delivery handler of the receiver asks every listener about every recipient,
in the order in which the listeners were registered.  A listener that accepts
is *bound* to the recipient.  A recipient that no listener accepts is refused.

A message is delivered once for every binding, in the order in which they were
made, and always from the same storage.  The first delivery that goes wrong is
the last one, and decides.
-/

namespace SmtpReceiver.Delivery

/-- A listener that accepted a recipient. -/
structure Binding (ω : Type) where
  /-- The listener. -/
  listener : Listener ω
  /-- The recipient. -/
  recipient : String

/-- The delivery handler over listeners. -/
structure Fanout (ω : Type) where
  /-- The listeners, in the order in which they are asked. -/
  listeners : List (Listener ω)
  /-- What the application remembers. -/
  world : ω
  /-- The sender of the transaction. -/
  sender? : Option String := none
  /-- The bindings of the transaction, first to last. -/
  bindings : List (Binding ω) := []

namespace Fanout

variable {ω : Type}

/-- The sender that listeners are told. -/
def senderText (f : Fanout ω) : String := f.sender?.getD ""

/-- The refusal of a recipient that nobody accepts. -/
def unknown (recipient : String) : Rejection :=
  ⟨.badAddress, "<" ++ recipient ++ "> address unknown."⟩

/-- Takes the sender. -/
def sender (f : Fanout ω) (_ : Peer) (address : String) :
    Turn Call (Fanout ω) (Except Rejection Unit) :=
  ⟨.ok (), { f with sender? := some address }, []⟩

/-- Asks listeners about a recipient, one after the other, and gives those that accept. -/
def askAll (peer : Peer) (sender recipient : String) :
    List (Listener ω) → ω → Turn Call ω (List (Listener ω))
  | [], world => ⟨[], world, []⟩
  | l :: ls, world =>
    let a := l.ask peer sender recipient world
    let r := askAll peer sender recipient ls a.next
    ⟨if a.result then l :: r.result else r.result, r.next, a.calls ++ r.calls⟩

/-- Asks every listener about a recipient. -/
def recipient (f : Fanout ω) (peer : Peer) (address : String) :
    Turn Call (Fanout ω) (Except Rejection Unit) :=
  let a := askAll peer f.senderText address f.listeners f.world
  { result := if a.result.isEmpty then .error (unknown address) else .ok ()
    next :=
      { f with
        world := a.next
        bindings := f.bindings ++ a.result.map fun l => ⟨l, address⟩ }
    calls := a.calls }

/-- Delivers a message for each binding, up to the first that goes wrong.  Every listener reads from
where the message is stored. -/
def deliverFrom (peer : Peer) (sender : String) (m : Message) :
    List (Binding ω) → ω × Storage → Turn Call (ω × Storage) (Except Fault Unit)
  | [], shared => ⟨.ok (), shared, []⟩
  | b :: bs, (world, storage) =>
    let t := b.listener.receive peer sender b.recipient m storage world
    match t.result with
    | .error _ => t
    | .ok () => (deliverFrom peer sender m bs t.next).after t.calls

/-- Delivers a message as it was received. -/
def deliver (peer : Peer) (sender : String) (m : Message) (bs : List (Binding ω)) (world : ω) :
    Turn Call ω (Except Fault Unit) :=
  (deliverFrom peer sender m bs (world, m.storage)).lift Prod.fst

/-- Delivers a message. -/
def message (f : Fanout ω) (peer : Peer) (m : Message) :
    Turn Call (Fanout ω) (Except Fault Unit) :=
  (deliver peer f.senderText m f.bindings f.world).lift fun world => { f with world }

/-- Ends the transaction. -/
def reset (f : Fanout ω) : Fanout ω := { f with sender? := none, bindings := [] }

instance : Handler (Fanout ω) := ⟨sender, recipient, message, reset⟩

end Fanout

end SmtpReceiver.Delivery
