import SmtpReceiver.Text.Utf8

/-!
# Delimiters

A command line ends with CRLF.  A message ends with CRLF, a dot and CRLF.  The
bytes of a delimiter arrive one at a time, so a frame in progress remembers how
many of them the last bytes match.

A byte that does not continue the match *breaks* it.  The first byte of the
match then belongs to the frame, and what follows it is tried again from the
start, with the new byte at the end.  In a message there is one exception.  A
match that has reached the dot began a line with a dot, and that dot is there
for transparency only.  It is dropped, and the CRLF before it belongs to the
frame.

`settle` does this for one byte.
-/

namespace SmtpReceiver.Framing

open Text (Bytes)

/-! ## Kinds of frame -/

def cr : UInt8 := 13
def lf : UInt8 := 10
/-- The dot that ends a message, or keeps a line apart from that end. -/
def dot : UInt8 := 46
/-- The end of a line. -/
def crlf : Bytes := [cr, lf]

/-- What a frame holds. -/
inductive Kind where
  | line
  | message
deriving DecidableEq, Repr

namespace Kind

/-- The bytes that end a frame. -/
def delimiter : Kind → Bytes
  | line => crlf
  | message => crlf ++ [dot] ++ crlf

/-- How many bytes of a broken match are settled at once, and are not tried again. -/
def settledBytes (k : Kind) (matched : Nat) : Nat :=
  if k = message ∧ 3 ≤ matched then 3 else 1

/-- Which of those bytes belong to the frame. -/
def keptBytes (k : Kind) (matched : Nat) : Bytes :=
  k.delimiter.take (if k = message ∧ 3 ≤ matched then 2 else 1)

/-- The bytes of a broken match that are tried again. -/
def retriedBytes (k : Kind) (matched : Nat) : Bytes :=
  (k.delimiter.take matched).drop (k.settledBytes matched)

theorem length_retriedBytes_lt (k : Kind) {matched : Nat} (h : matched ≠ 0) :
    (k.retriedBytes matched).length < matched := by
  simp only [retriedBytes, settledBytes, List.length_drop, List.length_take]
  split <;> omega

end Kind

/-! ## Matching -/

/-- What bytes did to a match. -/
structure Settled where
  /-- The bytes that turned out to belong to the frame. -/
  released : Bytes
  /-- How many bytes of the delimiter are matched now. -/
  matched : Nat
  /-- Whether the delimiter is complete. -/
  complete : Bool
deriving DecidableEq, Repr

/-- The same outcome with bytes released before. -/
def Settled.after (bytes : Bytes) (s : Settled) : Settled :=
  { s with released := bytes ++ s.released }

/-- Runs bytes through a match one at a time, up to the end of a delimiter. -/
def settleAll (step : Nat → UInt8 → Settled) (matched : Nat) : Bytes → Settled
  | [] => ⟨[], matched, false⟩
  | b :: bs =>
    let s := step matched b
    if s.complete then s else (settleAll step s.matched bs).after s.released

/-- Runs one byte through a match.  The bound is how many broken matches may
come out of one another. -/
def settleWithin (k : Kind) (bound matched : Nat) (b : UInt8) : Settled :=
  if k.delimiter[matched]? = some b then
    ⟨[], matched + 1, matched + 1 == k.delimiter.length⟩
  else if matched = 0 then ⟨[b], 0, false⟩
  else match bound with
    | 0 => ⟨[], matched, false⟩
    | bound + 1 =>
      (settleAll (settleWithin k bound) 0 (k.retriedBytes matched ++ [b])).after
        (k.keptBytes matched)

/-- Runs one byte through a match of so many bytes.  What is tried again is
shorter than the match that broke, so no more matches break than it has bytes. -/
def settle (k : Kind) (matched : Nat) (b : UInt8) : Settled := settleWithin k matched matched b

/-! ## Tests -/

example : settle .line 1 lf = ⟨[], 2, true⟩ := by decide

example : settle .line 1 cr = ⟨[cr], 1, false⟩ := by decide

example : settle .message 3 dot = ⟨[cr, lf, dot], 0, false⟩ := by decide

example : settle .message 4 cr = ⟨[cr, lf, cr], 1, false⟩ := by decide

end SmtpReceiver.Framing
