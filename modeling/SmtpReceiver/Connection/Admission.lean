/-!
# Admission

An `Admission` counts the connections that are open.  Each connection gets a
place, which holds the count at that moment, itself included.  A connection
whose place is above the limit is refused, and counts all the same until it
gives its place back.
-/

namespace SmtpReceiver

/-- The connections that are open. -/
structure Admission where
  /-- How many there are. -/
  live : Nat := 0
  /-- The place of every connection so far, and nothing where it was given back. -/
  places : List (Option Nat) := []
deriving DecidableEq, Repr

namespace Admission

/-- Takes a place for a new connection, and gives the number of the connection. -/
def enter (a : Admission) : Nat × Admission :=
  (a.places.length, { live := a.live + 1, places := a.places ++ [some (a.live + 1)] })

/-- The place of a connection, if it still has one. -/
def place? (a : Admission) (i : Nat) : Option Nat := (a.places[i]?).join

/-- Gives the place of a connection back.  Doing so twice changes nothing. -/
def leave (a : Admission) (i : Nat) : Admission :=
  match a.place? i with
  | some _ => { live := a.live - 1, places := a.places.set i none }
  | none => a

end Admission

/-- Whether a place is above the limit on connections. -/
def isOverCapacity (limit : Option Nat) (place : Option Nat) : Bool :=
  match limit, place with
  | some limit, some place => limit < place
  | _, _ => false

end SmtpReceiver
