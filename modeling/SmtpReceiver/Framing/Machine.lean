import SmtpReceiver.Framing.Decoder

/-!
# Decoding in machine words

The sizes that a decoder counts are words of 64 bits, and every sum of two of them is checked.
A sum that does not fit a word halts the program.  So does a buffer that would grow beyond the
greatest size that a buffer can have, which is half of what a word can say.  A file can be no
greater either.

The functions here are those of a decoder with these checks.  They have the same names, and go
over the same decoders.  A new decoder sets aside a buffer for a line at the limit and its CRLF,
and the room for that is a sum as well.
-/

namespace SmtpReceiver.Framing.Machine

open Text (Bytes)

/-! ## Words -/

/-- Why the program halts. -/
inductive Halt where
  /-- A sum does not fit a word. -/
  | overflow
  /-- A buffer or a file would be too large. -/
  | noMemory
deriving DecidableEq, Repr

/-- How many words there are. -/
def wordCount : Nat := 18446744073709551616

/-- The greatest size of a buffer, and of a file. -/
def largestBuffer : Nat := 9223372036854775807

def sum (a b : Nat) : Except Halt Nat :=
  if a + b < wordCount then .ok (a + b) else .error .overflow

/-- The size of a buffer or of a file, if there can be one of that size. -/
def room (size : Nat) : Except Halt Nat :=
  if size ≤ largestBuffer then .ok size else .error .noMemory

/-! ## The bytes of a frame -/

/-- Adds a byte of a command line. -/
def addLineByte (limit : Nat) (b : UInt8) (s : Store) : Except Halt Store :=
  match s.dropped with
  | some n => do
    let n ← sum n 1
    pure { s with dropped := some n }
  | none =>
    if limit ≤ s.held.size then pure { s with dropped := some 1 }
    else do
      let _ ← room (s.held.size + 1)
      pure { s with held := s.held.push b }

/-- The length of the line so far, with what was dropped. -/
def lineLength (s : Store) : Except Halt Nat := sum s.held.size (s.dropped.getD 0)

/-- Moves what is held to the spill file, with the failure of the write if it fails. -/
def flush (settings : Settings) (s : Store) : Except Halt (Option IoFailure × Store) :=
  match s.file with
  | none => pure (none, s)
  | some content =>
    if s.held.isEmpty then pure (none, s)
    else do
      let _ ← room (content.size + s.held.size)
      match settings.spillDirectory.fault? s.tries with
      | some fault =>
        pure (some fault.failure.cause,
          { s with file := some (content ++ s.held.take fault.reaching), tries := s.tries + 1 })
      | none =>
        let written ← sum s.written s.held.size
        pure (none,
          { s with held := #[], file := some (content ++ s.held), written, tries := s.tries + 1 })

/-- Adds bytes of a message, with the failure to make a spill file or to write to it if there is
one. -/
def addMessageBytes (settings : Settings) (bs : Bytes) (s : Store) :
    Except Halt (Option IoFailure × Store) := do
  let _ ← room (s.held.size + bs.length)
  let s := s.hold bs
  match s.file with
  | some _ =>
    if min settings.spillThreshold spillBatch ≤ s.held.size then flush settings s
    else pure (none, s)
  | none =>
    if settings.spillThreshold < s.held.size then
      match settings.spillDirectory.denied? with
      | some failure => pure (some failure.cause, s)
      | none => flush settings s.openFile
    else pure (none, s)

/-- Where a message is stored that is complete. -/
def storage (s : Store) : Except Halt Storage :=
  match s.file with
  | some content => do
    let length ← sum s.written s.held.size
    pure (.file ⟨content.toList, content.size⟩ length)
  | none => pure (.memory s.held.toList)

/-- The message of all bytes.  What is still held goes to the file first, and that may fail. -/
def message (settings : Settings) (s : Store) : Except Halt (Except IoFailure Message) := do
  let r ← flush settings s
  match r with
  | (some cause, _) => pure (.error cause)
  | (none, s) =>
    let storage ← storage s
    pure (.ok ⟨storage⟩)

/-! ## One byte -/

/-- Adds one byte to the frame. -/
def write (settings : Settings) (k : Kind) (b : UInt8) (d : Decoder) :
    Except Halt (Option IoFailure × Decoder) :=
  match k with
  | .line => do
    let store ← addLineByte settings.maxLine b d.store
    pure (none, { d with store })
  | .message => do
    let r ← addMessageBytes settings [b] d.store
    pure (r.1, { d with store := r.2 })

/-- Adds bytes to the frame up to the first failure.  Phantom bytes are passed over. -/
def emit (settings : Settings) (k : Kind) :
    Bytes → Decoder → Except Halt (Option IoFailure × Decoder)
  | [], d => pure (none, d)
  | b :: bs, d =>
    if 0 < d.phantom then emit settings k bs { d with phantom := d.phantom - 1 }
    else do
      let r ← write settings k b d
      match r with
      | (none, d) => emit settings k bs d
      | (some failure, d) => pure (some failure, d)

def finishLine (settings : Settings) (d : Decoder) :
    Except Halt (Decoder × Except Failure Frame) :=
  match d.store.dropped with
  | some _ => do
    let length ← lineLength d.store
    pure ({}, .error (.lineTooLong length))
  | none => pure ({}, .ok (.line (settings.charset.decode d.store.held.toList)))

/-- The store at the end of a message, with the CRLF before the dot. -/
def close (settings : Settings) (d : Decoder) : Except Halt (Option IoFailure × Store) :=
  if d.phantom = 0 then addMessageBytes settings crlf d.store else pure (none, d.store)

def finishMessage (settings : Settings) (d : Decoder) :
    Except Halt (Decoder × Except Failure Frame) := do
  let r ← close settings d
  match r with
  | (some failure, store) =>
    pure ({ d with kind := none, phantom := 0, store }, .error (.io failure))
  | (none, store) =>
    let r ← message settings store
    match r with
    | .error failure => pure ({}, .error (.io failure))
    | .ok m => pure ({}, .ok (.message m))

def finish (settings : Settings) (k : Kind) (d : Decoder) :
    Except Halt (Decoder × Except Failure Frame) :=
  match k with
  | .line => finishLine settings d
  | .message => finishMessage settings d

/-- Takes one byte of a frame of the given kind. -/
def feedFrame (settings : Settings) (k : Kind) (d : Decoder) (b : UInt8) :
    Except Halt (Decoder × Except Failure (Option Frame)) := do
  let s := settle k d.matched b
  let r ← emit settings k s.released { d with matched := 0 }
  match r with
  | (some failure, d) => pure (d, .error (.io failure))
  | (none, d) =>
    let d := { d with matched := s.matched }
    if s.complete then
      let r ← finish settings k d
      pure (r.1, r.2.map some)
    else pure (d, .ok none)

/-- Takes one byte, and begins a frame of the kind that is due if none is in progress. -/
def feed (settings : Settings) (d : Decoder) (expectMessage : Bool) (b : UInt8) :
    Except Halt (Decoder × Except Failure (Option Frame)) :=
  match d.kind with
  | some k => feedFrame settings k d b
  | none =>
    feedFrame settings (Decoder.due expectMessage) (d.start (Decoder.due expectMessage)) b

/-! ## Many bytes -/

/-- Feeds bytes up to the end of a frame or a failure, and leaves the bytes behind it. -/
def feedAll (settings : Settings) (expectMessage : Bool) :
    Bytes → Decoder → Except Halt Decoder.Decoded
  | [], d => pure ⟨d, [], .ok none⟩
  | b :: bs, d => do
    let r ← feed settings d expectMessage b
    match r with
    | (d, .ok none) => feedAll settings expectMessage bs d
    | (d, result) => pure ⟨d, bs, result⟩

/-- Takes bytes up to the end of a frame.  A failure within a frame uses up none of them. -/
def decode (settings : Settings) (d : Decoder) (expectMessage : Bool) (src : Bytes) :
    Except Halt Decoder.Decoded := do
  let r ← feedAll settings expectMessage src d
  match r.result with
  | .error failure => pure (if r.decoder.inFrame then ⟨r.decoder, src, .error failure⟩ else r)
  | .ok _ => pure r

/-- Whether so many more bytes could go to a spill file.  They are counted only if that matters. -/
def maySpill (settings : Settings) (d : Decoder) (incoming : Nat) (expectMessage : Bool) :
    Except Halt Bool :=
  if d.kind.getD (Decoder.due expectMessage) == .message then
    if d.store.file.isSome then pure true
    else do
      let size ← sum d.store.held.size incoming
      pure (decide (settings.spillThreshold < size))
  else pure false

/-- A new decoder, with a buffer for a line at the limit and its CRLF. -/
def new (settings : Settings) : Except Halt Decoder := do
  let size ← sum settings.maxLine crlf.length
  let _ ← room size
  pure {}

/-! ## Tests -/

example : new { maxLine := 998 } = .ok {} := rfl

end SmtpReceiver.Framing.Machine
