import SmtpReceiver.Delivery.Fanout

/-!
# The registered listeners

A `Roster` is the list of registrations that all sessions share.  A listener
may be registered more than once, and is then asked more than once.  Removing a
listener removes all its registrations.  A session keeps the roster of the time
when it began.
-/

namespace SmtpReceiver.Delivery

/-- The registrations, first to last. -/
structure Roster (ω : Type) where
  /-- The listeners, in the order of registration. -/
  listeners : List (Listener ω) := []
  /-- What the application remembers. -/
  world : ω

namespace Roster

variable {ω : Type}

/-- Registers a listener. -/
def add (r : Roster ω) (l : Listener ω) : Roster ω := { r with listeners := r.listeners ++ [l] }

/-- Removes a listener, and says whether it was registered. -/
def remove (r : Roster ω) (id : Nat) : Bool × Roster ω :=
  (r.listeners.any fun l => l.id == id,
    { r with listeners := r.listeners.filter fun l => l.id != id })

/-- The number of registrations. -/
def size (r : Roster ω) : Nat := r.listeners.length

/-- The delivery handler of a session that begins now. -/
def handler (r : Roster ω) : Fanout ω := { listeners := r.listeners, world := r.world }

end Roster

end SmtpReceiver.Delivery
