import SmtpReceiver.Failure

/-!
# The transport of a connection

A `Client` is what happens at the other end of a connection, as a list of
steps.  A step is taken when the receiver reads and has used everything that
came before.

A `Wire` is the receiver's end.  It keeps what was written, in one part for
every step that was taken and one part for what was written before.

One thing is assumed of a transport that fails.  A reply is written by one write,
and a write gets all of its bytes out or none.  A transport may break within a
reply, and then the client has the beginning of the reply, and no more.
-/

namespace SmtpReceiver

open Text (Bytes)

/-! ## The client -/

/-- How the client takes part in starting TLS. -/
inductive Handshake where
  /-- As it should. -/
  | proper
  /-- In a way that fails, of which the transport says this. -/
  | fails (cause : IoFailure)
deriving DecidableEq, Repr

namespace Handshake

/-- What is said of bytes that begin no handshake. -/
def noRecord : IoFailure := ⟨.invalidData, "no TLS record"⟩

/-- What is said of a client that sends nothing more. -/
def noClient : IoFailure := ⟨.unexpectedEof, "end of input"⟩

end Handshake

/-- One step of a client. -/
inductive ClientStep where
  /-- Bytes arrive. -/
  | send (bytes : Bytes)
  /-- So many milliseconds pass. -/
  | wait (milliseconds : Nat)
  | readError (kind : IoKind)
  /-- The next write will fail, and get nothing out. -/
  | writeError (kind : IoKind)
  /-- TLS is started from the side of the client. -/
  | startTls (handshake : Handshake)
deriving DecidableEq, Repr

/-- The other end of a connection. -/
structure Client where
  /-- Whether the first write fails. -/
  greetingError : Option IoKind := none
  /-- The steps, first to last. -/
  steps : List ClientStep := []
deriving DecidableEq, Repr

/-- Bytes as they arrive in reads of a size, of which the first has only so much room. -/
def readsWithin (size room : Nat) : Bytes → List Bytes
  | [] => []
  | b :: bs =>
    if room ≤ 1 then [b] :: readsWithin size size bs
    else match readsWithin size (room - 1) bs with
      | [] => [[b]]
      | r :: rs => (b :: r) :: rs

/-- Bytes as they arrive in reads of a size. -/
def readsOf (size : Nat) (bs : Bytes) : List Bytes := readsWithin size size bs

/-! ## The receiver's end -/

/-- The receiver's end of a transport. -/
structure Wire where
  /-- The parts that were written, the latest first. -/
  parts : List Bytes := [[]]
  /-- Whether the next write fails. -/
  fault : Option IoKind := none
  /-- TLS is running. -/
  secure : Bool := false
  /-- The receiver has closed its end. -/
  shut : Bool := false
deriving DecidableEq, Repr

namespace Wire

/-- Begins a new part. -/
def turn (w : Wire) : Wire := { w with parts := [] :: w.parts }

/-- Writes bytes, with the failure if there is one.  It is assumed that a write that fails leaves
nothing behind. -/
def write (w : Wire) (bs : Bytes) : Option IoFailure × Wire :=
  match w.fault with
  | some kind => (some ⟨kind, kind.name⟩, { w with fault := none })
  | none =>
    (none, { w with parts := match w.parts with
      | [] => [bs]
      | p :: ps => (p ++ bs) :: ps })

/-- The parts in the order in which they were written. -/
def transcript (w : Wire) : List Bytes := w.parts.reverse

end Wire

end SmtpReceiver
