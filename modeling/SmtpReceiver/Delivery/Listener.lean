import SmtpReceiver.Delivery.Basic

/-!
# Listeners

A listener wants mail for some recipients.  Of a message that it is given it
reads as many bytes as it cares for, and then says how the delivery went.  What
the message is stored in is left to the next listener as this one left it.

What the application remembers behind its listeners is the *world*.  A listener
may look at the world and change it whenever it is called.  So it may accept a
recipient now and refuse it later, or fail at the second message only.

A *collector* reads all of a message and always succeeds.  What a collector has
collected is what it read, and that shows in the calls.
-/

namespace SmtpReceiver.Delivery

open Text (Bytes)

/-- A receiver of mail on the side of the application, over worlds of a type. -/
structure Listener (ω : Type) where
  /-- Tells the listener from the others. -/
  id : Nat
  /-- Whether it wants mail from a sender for a recipient. -/
  accepts : Peer → String → String → ω → Bool × ω
  /-- How many bytes of a message it reads at most, if not all. -/
  appetite : Message → ω → Option Nat := fun _ _ => none
  /-- How the delivery went, after so much was read. -/
  outcome : Peer → String → String → Bytes → ω → Except Fault Unit × ω :=
    fun _ _ _ _ world => (.ok (), world)

namespace Listener

variable {ω : Type}

/-- How the listener reads a message. -/
def reading (l : Listener ω) (m : Message) (world : ω) : Reader → Bytes × Reader :=
  match l.appetite m world with
  | some n => fun r => r.read n
  | none => Reader.readAll

/-- Asks the listener about a recipient. -/
def ask (l : Listener ω) (peer : Peer) (sender recipient : String) (world : ω) : Turn Call ω Bool :=
  let a := l.accepts peer sender recipient world
  ⟨a.1, a.2, [.accept l.id peer sender recipient a.1]⟩

/-- Gives the listener a message, to be read from where it is stored. -/
def receive (l : Listener ω) (peer : Peer) (sender recipient : String) (m : Message)
    (storage : Storage) (world : ω) : Turn Call (ω × Storage) (Except Fault Unit) :=
  let t := l.reading m world storage.open
  let r := l.outcome peer sender recipient t.1 world
  let fault? := match r.1 with
    | .ok () => none
    | .error fault => some fault
  ⟨r.1, (r.2, t.2.storage), [.deliver l.id peer sender recipient m t.1 fault?]⟩

end Listener

/-! ## Which recipients -/

/-- A choice of recipients. -/
inductive Choice where
  /-- Everyone. -/
  | anyone
  /-- Exactly these. -/
  | among (recipients : List String)
  /-- Those that end so. -/
  | endingWith (ending : String)
deriving DecidableEq, Repr

/-- Whether a recipient is among those chosen. -/
def Choice.holds : Choice → String → Bool
  | anyone, _ => true
  | among recipients, r => recipients.contains r
  | endingWith ending, r => ending.toList.isSuffixOf r.toList

variable {ω : Type}

/-- A listener that reads all mail for a choice of recipients. -/
def Listener.collector (id : Nat) (choice : Choice) : Listener ω :=
  { id, accepts := fun _ _ recipient world => (choice.holds recipient, world) }

/-- A listener that reads so much and always ends the same way. -/
def Listener.prepared (id : Nat) (choice : Choice) (appetite : Option Nat)
    (result : Except Fault Unit) : Listener ω :=
  { id
    accepts := fun _ _ recipient world => (choice.holds recipient, world)
    appetite := fun _ _ => appetite
    outcome := fun _ _ _ _ world => (result, world) }

end SmtpReceiver.Delivery
