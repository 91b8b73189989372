import SmtpReceiver.Framing.Delimiter
import SmtpReceiver.Framing.Store

/-!
# Frames

The bytes of a client are command lines, and messages after an accepted `DATA`.
A `Decoder` holds the frame in progress.  The caller says which kind of frame
is due, and that counts only at the first byte of a frame.

`feed` takes one byte.  The last byte of a frame gives the frame, or says that
the line was above its limit.  `decode` takes bytes up to the end of a frame
and leaves the rest.

The CRLF that ended the `DATA` line counts as the start of the delimiter of the
message.  So a message frame begins with two bytes matched, and these two are
*phantom*: they are no part of the message and are never written.  A dot alone
on the first line thus ends an empty message.

A failure to make a spill file or to write to it can arise in three places.
Within a frame, all bytes given to `decode` stay with the caller and the frame
stays in progress.  At the last byte of a frame the bytes are used up and the
frame is over.  If the CRLF of the last line cannot be added there, the bytes of
the message stay in the store.  If the rest of the message cannot be written,
they are dropped.
-/

namespace SmtpReceiver.Framing

open Text (Bytes)

/-- A unit of client input. -/
inductive Frame where
  /-- A command line without its CRLF. -/
  | line (text : String)
  /-- A message without the dot that ended it. -/
  | message (m : Message)
deriving DecidableEq, Repr

/-- The frame in progress, and what is matched of its delimiter. -/
structure Decoder where
  /-- The kind of the frame in progress, if there is one. -/
  kind : Option Kind := none
  /-- How many bytes of the delimiter are matched. -/
  matched : Nat := 0
  /-- How many of the matched bytes came before the frame. -/
  phantom : Nat := 0
  store : Store := {}
deriving DecidableEq, Repr

namespace Decoder

def inFrame (d : Decoder) : Bool := d.kind.isSome

/-- The kind of frame that is due. -/
def due (expectMessage : Bool) : Kind := if expectMessage then .message else .line

def reset (_ : Decoder) : Decoder := {}

/-- Whether so many more bytes could go to a spill file. -/
def maySpill (settings : Settings) (d : Decoder) (incoming : Nat) (expectMessage : Bool) : Bool :=
  d.kind.getD (due expectMessage) == .message && d.store.maySpill settings incoming

/-! ## One byte -/

/-- The decoder at the first byte of a frame. -/
def start (k : Kind) (d : Decoder) : Decoder :=
  match k with
  | .line => { d with kind := some .line, matched := 0, phantom := 0 }
  | .message =>
    { d with kind := some .message, matched := crlf.length, phantom := crlf.length }

/-- Adds one byte to the frame. -/
def write (settings : Settings) (k : Kind) (b : UInt8) (d : Decoder) : Option IoFailure × Decoder :=
  match k with
  | .line => (none, { d with store := d.store.addLineByte settings.maxLine b })
  | .message =>
    let r := d.store.addMessageBytes settings [b]
    (r.1, { d with store := r.2 })

/-- Adds bytes to the frame up to the first failure.  Phantom bytes are passed over. -/
def emit (settings : Settings) (k : Kind) : Bytes → Decoder → Option IoFailure × Decoder
  | [], d => (none, d)
  | b :: bs, d =>
    if 0 < d.phantom then emit settings k bs { d with phantom := d.phantom - 1 }
    else
      match write settings k b d with
      | (none, d) => emit settings k bs d
      | (some failure, d) => (some failure, d)

def finishLine (settings : Settings) (d : Decoder) : Decoder × Except Failure Frame :=
  match d.store.dropped with
  | some _ => ({}, .error (.lineTooLong d.store.lineLength))
  | none => ({}, .ok (.line (settings.charset.decode d.store.held.toList)))

/-- The store at the end of a message.  The CRLF before the dot belongs to the message,
unless it is the one that ended the `DATA` line. -/
def close (settings : Settings) (d : Decoder) : Option IoFailure × Store :=
  if d.phantom = 0 then d.store.addMessageBytes settings crlf else (none, d.store)

def finishMessage (settings : Settings) (d : Decoder) : Decoder × Except Failure Frame :=
  match d.close settings with
  | (some failure, store) => ({ d with kind := none, phantom := 0, store }, .error (.io failure))
  | (none, store) =>
    match store.message settings with
    | .error failure => ({}, .error (.io failure))
    | .ok m => ({}, .ok (.message m))

def finish (settings : Settings) (k : Kind) (d : Decoder) : Decoder × Except Failure Frame :=
  match k with
  | .line => d.finishLine settings
  | .message => d.finishMessage settings

/-- Takes one byte of a frame of the given kind. -/
def feedFrame (settings : Settings) (k : Kind) (d : Decoder) (b : UInt8) :
    Decoder × Except Failure (Option Frame) :=
  let s := settle k d.matched b
  match emit settings k s.released { d with matched := 0 } with
  | (some failure, d) => (d, .error (.io failure))
  | (none, d) =>
    let d := { d with matched := s.matched }
    if s.complete then
      let r := d.finish settings k
      (r.1, r.2.map some)
    else (d, .ok none)

/-- Takes one byte, and begins a frame of the kind that is due if none is in progress. -/
def feed (settings : Settings) (d : Decoder) (expectMessage : Bool) (b : UInt8) :
    Decoder × Except Failure (Option Frame) :=
  match d.kind with
  | some k => d.feedFrame settings k b
  | none => (d.start (due expectMessage)).feedFrame settings (due expectMessage) b

/-! ## Many bytes -/

/-- What decoding did. -/
structure Decoded where
  /-- The decoder afterwards. -/
  decoder : Decoder
  /-- The bytes that were not used. -/
  rest : Bytes
  /-- The frame that ended, if one did, or the failure. -/
  result : Except Failure (Option Frame)

/-- Feeds bytes up to the end of a frame or a failure, and leaves the bytes behind it. -/
def feedAll (settings : Settings) (expectMessage : Bool) : Bytes → Decoder → Decoded
  | [], d => ⟨d, [], .ok none⟩
  | b :: bs, d =>
    match d.feed settings expectMessage b with
    | (d, .ok none) => feedAll settings expectMessage bs d
    | (d, result) => ⟨d, bs, result⟩

/-- Takes bytes up to the end of a frame.  A failure within a frame uses up none of them. -/
def decode (settings : Settings) (d : Decoder) (expectMessage : Bool) (src : Bytes) : Decoded :=
  let r := feedAll settings expectMessage src d
  match r.result with
  | .error failure => if r.decoder.inFrame then ⟨r.decoder, src, .error failure⟩ else r
  | .ok _ => r

/-- A frame that ends uses up at least one byte. -/
theorem length_rest_feedAll_lt {settings : Settings} {expectMessage : Bool} {frame : Frame} :
    ∀ {src : Bytes} {d : Decoder},
      (feedAll settings expectMessage src d).result = .ok (some frame) →
      (feedAll settings expectMessage src d).rest.length < src.length
  | [], d, h => by simp [feedAll] at h
  | b :: bs, d, h => by
      unfold feedAll at h ⊢
      split at h
      · next d' hf =>
        have ih := length_rest_feedAll_lt h
        simp only [List.length_cons]
        omega
      · simp

theorem length_rest_decode_lt {settings : Settings} {d : Decoder} {expectMessage : Bool}
    {src : Bytes} {frame : Frame}
    (h : (d.decode settings expectMessage src).result = .ok (some frame)) :
    (d.decode settings expectMessage src).rest.length < src.length := by
  unfold decode at h ⊢
  cases hr : (feedAll settings expectMessage src d).result with
  | ok a =>
      simp only [hr] at h ⊢
      exact length_rest_feedAll_lt (hr.trans h)
  | error failure =>
      simp only [hr] at h
      split at h <;> simp_all

end Decoder

/-! ## Tests -/

example :
    (Decoder.decode {} {} true (Text.encode "..a\r\n.\r\nQUIT\r\n")).rest
      = Text.encode "QUIT\r\n" := by decide +kernel

example :
    (Decoder.decode { spillThreshold := 2 } {} true (Text.encode "ab\r\n.\r\n")).decoder = {} := by
  decide +kernel

end SmtpReceiver.Framing
