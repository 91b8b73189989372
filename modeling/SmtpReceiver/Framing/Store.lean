import SmtpReceiver.Message
import SmtpReceiver.Settings

/-!
# The bytes of a frame in progress

A command line is held in memory up to its limit.  Bytes above the limit are
counted and dropped, so that the length of the whole line can be told.

A message is held in memory up to the spill threshold.  The first byte above it
opens a spill file, and all that is held moves there.  From then on bytes are
held until there are enough of them for one write.  If no spill file can be
made, the bytes stay in memory and the write that asked for the file fails.  If
a write to the file fails, they stay in memory as well, and the file may have
some of them too.

What goes to the file is counted apart from it, and what a write that failed has
left there is not counted.  The message is then as long as was counted, and no
more of the file is ever read.
-/

namespace SmtpReceiver.Framing

open Text (Bytes)

/-- The greatest number of bytes held once a message is spilling. -/
def spillBatch : Nat := 8192

/-- The bytes of a frame in progress. -/
structure Store where
  /-- The bytes in memory. -/
  held : Array UInt8 := #[]
  /-- The content of the spill file, once there is one. -/
  file : Option (Array UInt8) := none
  /-- How many bytes were written to the spill file. -/
  written : Nat := 0
  /-- How many writes to the spill file were tried. -/
  tries : Nat := 0
  /-- How many bytes of a line above the limit were dropped. -/
  dropped : Option Nat := none
deriving DecidableEq, Repr

namespace Store

/-! ## Lines -/

/-- Adds a byte of a command line. -/
def addLineByte (limit : Nat) (b : UInt8) (s : Store) : Store :=
  match s.dropped with
  | some n => { s with dropped := some (n + 1) }
  | none => if limit ≤ s.held.size then { s with dropped := some 1 } else { s with held := s.held.push b }

/-- The length of the line so far, with what was dropped. -/
def lineLength (s : Store) : Nat := s.held.size + s.dropped.getD 0

/-! ## Messages -/

/-- Holds more bytes. -/
def hold (bs : Bytes) (s : Store) : Store := { s with held := s.held ++ bs }

/-- Begins a spill file. -/
def openFile (s : Store) : Store := { s with file := some #[], tries := 0 }

/-- Moves what is held to the spill file, with the failure of the write if it fails.  Where nothing
is held nothing is written. -/
def flush (settings : Settings) (s : Store) : Option IoFailure × Store :=
  match s.file with
  | none => (none, s)
  | some content =>
    if s.held.isEmpty then (none, s)
    else
      match settings.spillDirectory.fault? s.tries with
      | some fault =>
        (some fault.failure.cause,
          { s with file := some (content ++ s.held.take fault.reaching), tries := s.tries + 1 })
      | none =>
        (none,
          { s with
            held := #[]
            file := some (content ++ s.held)
            written := s.written + s.held.size
            tries := s.tries + 1 })

/-- Adds bytes of a message, with the failure to make a spill file or to write to it if there is
one. -/
def addMessageBytes (settings : Settings) (bs : Bytes) (s : Store) : Option IoFailure × Store :=
  let s := s.hold bs
  match s.file with
  | some _ =>
    if min settings.spillThreshold spillBatch ≤ s.held.size then s.flush settings else (none, s)
  | none =>
    if settings.spillThreshold < s.held.size then
      match settings.spillDirectory.denied? with
      | some failure => (some failure.cause, s)
      | none => s.openFile.flush settings
    else (none, s)

/-- Whether so many more bytes of a message could go to a spill file. -/
def maySpill (settings : Settings) (incoming : Nat) (s : Store) : Bool :=
  s.file.isSome || decide (settings.spillThreshold < s.held.size + incoming)

/-- All bytes of the frame, the spilled ones first. -/
def content (s : Store) : Bytes := (s.file.getD #[]).toList ++ s.held.toList

/-- The length of a message by what was counted. -/
def messageLength (s : Store) : Nat := s.written + s.held.size

/-- Where a message is stored that is complete.  The cursor of a file is behind what was written. -/
def storage (s : Store) : Storage :=
  match s.file with
  | some content => .file ⟨content.toList, content.size⟩ s.messageLength
  | none => .memory s.held.toList

/-- The message of all bytes.  What is still held goes to the file first, and that may fail. -/
def message (settings : Settings) (s : Store) : Except IoFailure Message :=
  match s.flush settings with
  | (some cause, _) => .error cause
  | (none, s) => .ok ⟨s.storage⟩

end Store

end SmtpReceiver.Framing
