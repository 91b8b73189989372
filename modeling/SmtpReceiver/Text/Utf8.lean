/-!
# UTF-8

`encode` writes a text as bytes.  `decode` reads any bytes: a sequence that is
no character becomes the replacement character U+FFFD.  One replacement stands
for a *maximal subpart*, the longest start of the bytes that could still begin
a character, or for one byte if there is no such start.

The bytes are read one at a time.  A lead byte says how many continuation bytes
follow and in which range the first of them lies.  That range keeps out
overlong forms, surrogates and code points above U+10FFFF.
-/

namespace SmtpReceiver.Text

/-- A sequence of bytes. -/
abbrev Bytes := List UInt8

/-- The bytes of a text. -/
def encode (s : String) : Bytes := s.toList.flatMap String.utf8EncodeChar

/-- A character that has begun. -/
structure Pending where
  /-- The number of continuation bytes that are missing. -/
  missing : Nat
  /-- The bits of the code point so far. -/
  bits : Nat
  /-- The least byte that may come next. -/
  low : UInt8
  /-- The greatest byte that may come next. -/
  high : UInt8
deriving DecidableEq, Repr

/-- The character that stands for bytes that are none. -/
def replacement : Char := '\uFFFD'

/-- What a byte begins: a whole character, or one that goes on, or none. -/
def lead (b : UInt8) : List Char × Option Pending :=
  let n := b.toNat
  if n < 0x80 then ([Char.ofNat n], none)
  else if n < 0xC2 then ([replacement], none)
  else if n < 0xE0 then ([], some ⟨1, n - 0xC0, 0x80, 0xBF⟩)
  else if n = 0xE0 then ([], some ⟨2, 0, 0xA0, 0xBF⟩)
  else if n = 0xED then ([], some ⟨2, 0xD, 0x80, 0x9F⟩)
  else if n < 0xF0 then ([], some ⟨2, n - 0xE0, 0x80, 0xBF⟩)
  else if n = 0xF0 then ([], some ⟨3, 0, 0x90, 0xBF⟩)
  else if n < 0xF4 then ([], some ⟨3, n - 0xF0, 0x80, 0xBF⟩)
  else if n = 0xF4 then ([], some ⟨3, 4, 0x80, 0x8F⟩)
  else ([replacement], none)

/-- The characters that a byte completes, and the character that has begun after it. -/
def advance : Option Pending → UInt8 → List Char × Option Pending
  | none, b => lead b
  | some p, b =>
    if p.low ≤ b ∧ b ≤ p.high then
      let bits := p.bits * 64 + (b.toNat - 0x80)
      if p.missing = 1 then ([Char.ofNat bits], none)
      else ([], some ⟨p.missing - 1, bits, 0x80, 0xBF⟩)
    else
      let r := lead b
      (replacement :: r.1, r.2)

/-- The characters of bytes that follow the start of a character.  A character
that the bytes do not complete is none. -/
def decodeFrom : Option Pending → Bytes → List Char
  | none, [] => []
  | some _, [] => [replacement]
  | p, b :: bs =>
    let r := advance p b
    r.1 ++ decodeFrom r.2 bs

/-- The text of a sequence of bytes. -/
def decode (bs : Bytes) : String := String.ofList (decodeFrom none bs)

/-! ## Tests -/

example : decode (encode "aé€😀") = "aé€😀" := by decide +kernel

example : decode [0xE2, 0x82, 0x41, 0xED, 0xA0, 0xC3] = "\uFFFDA\uFFFD\uFFFD\uFFFD" := by
  decide +kernel

end SmtpReceiver.Text
