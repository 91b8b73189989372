import SmtpReceiver.Connection.Run
import SmtpReceiver.Delivery.Roster

/-!
# The receiver

A `Server` holds what its connections share: the settings, the commands, the
registered listeners and the count of open connections.  Every connection gets
an authenticator of its own and a delivery handler over the listeners of the
moment.  It counts as open from then on, until it has run or was dropped.
-/

namespace SmtpReceiver

open Auth (Authenticator)
open Delivery (Fanout Roster)

/-- What connections share, and the connections that have not run. -/
structure Server (α δ ω : Type) where
  settings : Settings := {}
  table : CommandTable α δ
  /-- The authenticator of a new connection. -/
  newAuth : α
  /-- The delivery handler of a new connection. -/
  newDelivery : Fanout ω → δ
  /-- The registered listeners. -/
  roster : Roster ω
  /-- The receiver can start TLS. -/
  hasTls : Bool := false
  /-- The count of open connections. -/
  admission : Admission := {}
  /-- The connections by their numbers, and nothing where one has run or was dropped. -/
  waiting : List (Option (Connection α δ)) := []

namespace Server

variable {α δ ω : Type}

/-- Accepts a client, and gives the number of the connection. -/
def connect (s : Server α δ ω) (remote : Option String) : Nat × Server α δ ω :=
  let (id, admission) := s.admission.enter
  let c := Connection.make s.settings s.table s.newAuth (s.newDelivery s.roster.handler) s.hasTls
    remote
  (id, { s with admission, waiting := s.waiting ++ [some { c with place := admission.place? id }] })

/-- The connection of a number, if it has not run and was not dropped. -/
def connection? (s : Server α δ ω) (id : Nat) : Option (Connection α δ) := (s.waiting[id]?).join

def drop (s : Server α δ ω) (id : Nat) : Server α δ ω :=
  { s with admission := s.admission.leave id, waiting := s.waiting.set id none }

/-- Runs a connection to its end, and drops it. -/
def run [Authenticator α] (s : Server α δ ω) (id : Nat) (client : Client) :
    Option Report × Server α δ ω :=
  ((s.connection? id).map fun c => c.run client, s.drop id)

def openConnections (s : Server α δ ω) : Nat := s.admission.live

end Server

end SmtpReceiver
