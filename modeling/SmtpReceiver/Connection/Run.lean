import SmtpReceiver.Auth.Open
import SmtpReceiver.Connection.Admission
import SmtpReceiver.Connection.Wire
import SmtpReceiver.Delivery.Fanout
import SmtpReceiver.Dispatch

/-!
# The course of a connection

A `Connection` is ready to run.  A `Run` is one that has begun.  It greets the
client, and then reads.  What was read goes to a buffer, and the decoder takes
one frame after the other out of it.  Each frame is followed by the one reply to
it, before the next is looked at.

A run is in one of three phases.  It reads, and knows for how long the read has
lasted.  Or it waits for the client to take part in starting TLS.  Or it is
closed, with a result.  What is in the buffer when TLS starts is dropped, and
everything that comes after the end stays where it is.

Four things close a run.  The client may quit, or go away, which is no failure.
It may be idle for too long, and is told so.  A command or a frame may fail,
and the client is told what `Failure.reply` says, unless the failure means that
it went away.  A write may fail, and then there is nothing more to say.
-/

namespace SmtpReceiver

open Auth (Authenticator)
open Framing (Decoder Frame)
open Text (Bytes)

/-- A connection that has not begun. -/
structure Connection (α δ : Type) where
  /-- The session at its start. -/
  session : Session α δ
  table : CommandTable α δ
  /-- The receiver can start TLS. -/
  hasTls : Bool := false
  /-- The place among the open connections. -/
  place : Option Nat := none

namespace Connection

variable {α δ : Type}

/-- The connection of a client at an address. -/
def make (settings : Settings) (table : CommandTable α δ) (auth : α) (delivery : δ)
    (hasTls : Bool) (remote : Option String) : Connection α δ :=
  { session := { settings, auth, delivery, peer := { remote }, offersTls := hasTls }
    table
    hasTls }

/-- The connection with another authenticator. -/
def withAuth (c : Connection α δ) (auth : α) : Connection α δ :=
  { c with session := { c.session with auth } }

/-- The connection with another delivery handler. -/
def withDelivery (c : Connection α δ) (delivery : δ) : Connection α δ :=
  { c with session := { c.session with delivery } }

/-- The connection when the receiver can start TLS on it. -/
def withTls (c : Connection α δ) : Connection α δ :=
  { c with session := { c.session with offersTls := true }, hasTls := true }

/-- The connection as one of those that are open. -/
def withPlace (c : Connection α δ) (place : Nat) : Connection α δ := { c with place := some place }

/-- Whether the connection is refused for the number of others. -/
def isRefused (c : Connection α δ) : Bool :=
  isOverCapacity c.session.settings.maxConnections c.place

end Connection

/-- What a run is doing. -/
inductive Phase where
  /-- It reads, and has waited for so many milliseconds. -/
  | reading (idle : Nat)
  /-- It waits for the client to take part in starting TLS. -/
  | handshake
  /-- It is over. -/
  | closed (result : Except Failure Unit)

instance : DecidableEq Phase
  | .reading idle, .reading idle' => decidable_of_iff (idle = idle') (by simp)
  | .handshake, .handshake => isTrue rfl
  | .closed (.ok ()), .closed (.ok ()) => isTrue rfl
  | .closed (.error f), .closed (.error f') => decidable_of_iff (f = f') (by simp)
  | .reading _, .handshake | .reading _, .closed _ => isFalse (by simp)
  | .handshake, .reading _ | .handshake, .closed _ => isFalse (by simp)
  | .closed _, .reading _ | .closed _, .handshake => isFalse (by simp)
  | .closed (.ok _), .closed (.error _) | .closed (.error _), .closed (.ok _) => isFalse (by simp)

/-- A connection that has begun. -/
structure Run (α δ : Type) where
  session : Session α δ
  table : CommandTable α δ
  /-- The receiver can start TLS. -/
  hasTls : Bool
  /-- The frame in progress. -/
  decoder : Decoder := {}
  /-- What was read and not yet decoded. -/
  buffer : Bytes := []
  wire : Wire
  phase : Phase := .reading 0
  /-- The calls that were made, in order. -/
  calls : List Call := []

namespace Run

variable {α δ : Type}

/-! ## Replies and the end -/

/-- The refusal of a connection above the limit. -/
def tooMany : Reply := .line .refused "Transaction failed. Too many connections."

/-- The farewell to an idle client. -/
def tooIdle : Reply := .line .unavailable "Timeout waiting for data from client."

def close (r : Run α δ) (result : Except Failure Unit) : Run α δ := { r with phase := .closed result }

/-- Closes the transport and ends the run. -/
def shut (r : Run α δ) (result : Except Failure Unit) : Run α δ :=
  { r with wire := { r.wire with shut := true }, phase := .closed result }

def write (r : Run α δ) (reply : Reply) : Option IoFailure × Run α δ :=
  let w := r.wire.write reply.wire
  (w.1, { r with wire := w.2 })

/-- Ends the run after a write that failed. -/
def writeFailed (r : Run α δ) (cause : IoFailure) : Run α δ :=
  r.close (if cause.kind.isDisconnect then .ok () else .error (.io cause))

/-- Writes a last reply and ends the run. -/
def farewell (r : Run α δ) (reply : Reply) : Run α δ :=
  match r.write reply with
  | (some cause, r) => r.writeFailed cause
  | (none, r) => r.shut (.ok ())

/-- Ends the run for a failure.  Whether the client can still be told does not matter. -/
def fail (r : Run α δ) (failure : Failure) : Run α δ :=
  if failure.isDisconnect then r.close (.ok ())
  else (r.write failure.reply).2.shut (.error failure)

/-! ## Frames -/

/-- Ends the run if the client has quit. -/
def settleQuit (r : Run α δ) : Run α δ := if r.session.progress.active then r else r.shut (.ok ())

/-- Turns to the client for starting TLS.  What was read before is dropped. -/
def beginTls (r : Run α δ) : Run α δ :=
  let r := { r with session := { r.session with wantsTls := false } }
  if !r.hasTls then r.close (.error (.protocol "STARTTLS accepted without a TLS acceptor"))
  else
    let r := { r with buffer := [], decoder := r.decoder.reset }
    if r.wire.secure then r.close (.error (.protocol "Already using TLS"))
    else { r with phase := .handshake }

/-- Goes on after a reply. -/
def afterReply (r : Run α δ) : Run α δ := if r.session.wantsTls then r.beginTls else r.settleQuit

variable [Authenticator α]

def takeFrame (r : Run α δ) (frame : Frame) : Run α δ :=
  let o := r.table.dispatch frame r.session
  let r := { r with session := o.session, calls := r.calls ++ o.calls }
  match o.answer with
  | .error failure => r.fail failure
  | .ok reply =>
    match r.write reply with
    | (some cause, r) => r.writeFailed cause
    | (none, r) => r.afterReply

theorem length_buffer_takeFrame_le (r : Run α δ) (frame : Frame) :
    (r.takeFrame frame).buffer.length ≤ r.buffer.length := by
  unfold takeFrame fail write writeFailed afterReply beginTls settleQuit
  grind [shut, close]

/-- Decodes what was read, and answers the frames that end in it one after the other. -/
def answerFrames (r : Run α δ) : Run α δ :=
  match r.phase with
  | .reading _ =>
    let d := r.decoder.decode r.session.settings r.session.progress.expectsMessage r.buffer
    let r := { r with decoder := d.decoder, buffer := d.rest }
    match _h : d.result with
    | .ok none => r
    | .ok (some frame) => (r.takeFrame frame).answerFrames
    | .error failure => r.fail failure
  | _ => r
termination_by r.buffer.length
decreasing_by
  exact Nat.lt_of_le_of_lt (length_buffer_takeFrame_le _ _) (Decoder.length_rest_decode_lt _h)

/-- Takes the bytes of one read, and begins the next read. -/
def takeRead (r : Run α δ) (bs : Bytes) : Run α δ :=
  match r.phase with
  | .reading _ => { r with phase := .reading 0, buffer := r.buffer ++ bs }.answerFrames
  | .handshake => r.close (.error (.io Handshake.noRecord))
  | .closed _ => r

/-! ## Steps of the client -/

def elapse (r : Run α δ) (milliseconds : Nat) : Run α δ :=
  match r.phase with
  | .reading idle =>
    if r.session.settings.idleLimit < idle + milliseconds then r.farewell tooIdle
    else { r with phase := .reading (idle + milliseconds) }
  | _ => r

def readFailed (r : Run α δ) (kind : IoKind) : Run α δ :=
  match r.phase with
  | .reading _ => r.fail (.io ⟨kind, kind.name⟩)
  | .handshake => r.close (.error (.io ⟨kind, kind.name⟩))
  | .closed _ => r

/-- The session goes on over TLS. -/
def secured (r : Run α δ) : Run α δ :=
  { r with
    session := { r.session with peer := { r.session.peer with secure := true } }
    wire := { r.wire with secure := true }
    phase := .reading 0 }

/-- The client takes part in starting TLS, or does not.  The receiver writes
first, so a write that is to fail fails here. -/
def endHandshake (r : Run α δ) (h : Handshake) : Run α δ :=
  match r.phase, h with
  | .handshake, .proper =>
    match r.wire.write [] with
    | (some cause, wire) => { r with wire }.close (.error (.io cause))
    | (none, wire) => { r with wire }.secured.settleQuit
  | .handshake, .fails cause => r.close (.error (.io cause))
  | _, _ => r

/-- The client sends nothing more. -/
def endOfInput (r : Run α δ) : Run α δ :=
  match r.phase with
  | .reading _ => r.close (.ok ())
  | .handshake => r.close (.error (.io Handshake.noClient))
  | .closed _ => r

def takeStep (r : Run α δ) (step : ClientStep) : Run α δ :=
  let r := { r with wire := r.wire.turn }
  match step with
  | .send bs => (readsOf r.session.settings.readSize bs).foldl takeRead r
  | .wait milliseconds => r.elapse milliseconds
  | .readError kind => r.readFailed kind
  | .writeError kind => { r with wire := { r.wire with fault := some kind } }
  | .startTls h => r.endHandshake h

/-- Takes the steps of the client until the run is closed, and gives the number of steps left. -/
def takeSteps : List ClientStep → Run α δ → Nat × Run α δ
  | [], r => (0, r.endOfInput)
  | step :: steps, r =>
    match r.phase with
    | .closed _ => (steps.length + 1, r)
    | _ => takeSteps steps (r.takeStep step)

def start (c : Connection α δ) (greetingError : Option IoKind) : Run α δ :=
  let r : Run α δ :=
    { session := c.session, table := c.table, hasTls := c.hasTls, wire := { fault := greetingError } }
  if c.isRefused then r.farewell tooMany
  else
    match r.write (.line .ready c.session.settings.greeting) with
    | (some cause, r) => r.writeFailed cause
    | (none, r) => r

end Run

/-! ## The whole course -/

/-- What became of a connection. -/
structure Report where
  /-- What was written, in one part for every step and one part before. -/
  transcript : List Bytes
  /-- How many steps were not taken. -/
  unread : Nat
  /-- The receiver closed the transport. -/
  shut : Bool
  result : Except Failure Unit
  /-- The calls that were made, in order. -/
  calls : List Call

def Connection.run {α δ : Type} [Authenticator α] (c : Connection α δ) (client : Client) : Report :=
  let (unread, r) := Run.takeSteps client.steps (Run.start c client.greetingError)
  { transcript := r.wire.transcript
    unread
    shut := r.wire.shut
    result := match r.phase with
      | .closed result => result
      | _ => .ok ()
    calls := r.calls }

/-! ## Tests -/

/-- A connection without authentication and without listeners. -/
def Connection.bare (settings : Settings) : Connection Auth.Open (Delivery.Fanout Unit) :=
  .make settings .builtin {} { listeners := [], world := () } false none

example :
    ((Connection.bare {}).run ⟨none, [.send (Text.encode "NO"), .send (Text.encode "OP\r\nQUIT\r\n")]⟩
      ).transcript.map Text.decode
      = ["220 localhost ESMTP Mailgate\r\n", "", "250 Ok\r\n221 Bye\r\n"] := by decide +kernel

example :
    ((Connection.bare {}).run ⟨none, [.wait 60001, .send (Text.encode "NOOP\r\n")]⟩
      ).transcript.map Text.decode
      = ["220 localhost ESMTP Mailgate\r\n", "421 Timeout waiting for data from client.\r\n"] := by
  decide +kernel

end SmtpReceiver
