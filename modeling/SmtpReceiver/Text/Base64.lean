import SmtpReceiver.Text.Utf8

/-!
# Base64

The engine that writes bytes as text and reads them back is no part of the
receiver.  `Base64` is such an engine, and everything that needs one takes it as
a parameter.  What the receiver relies on is `LawfulBase64`: the engine writes
the standard alphabet with padding, and reads back what it has written.

With this alphabet three bytes are four characters, and one or two bytes at the
end are filled up with `=`.

An engine is at hand.  It reads only what it writes.  A character outside the
alphabet, a missing or misplaced `=`, and a bit set behind the last whole byte
are all refused.
-/

namespace SmtpReceiver.Text

/-- An engine for base64. -/
class Base64 where
  encode : Bytes → String
  decode? : String → Option Bytes

/-- The character of six bits. -/
def base64Char (n : Nat) : Char :=
  if n < 26 then Char.ofNat (0x41 + n)
  else if n < 52 then Char.ofNat (0x61 + (n - 26))
  else if n < 62 then Char.ofNat (0x30 + (n - 52))
  else if n = 62 then '+'
  else '/'

/-- The six bits of a character, if it is in the alphabet. -/
def base64Value? (c : Char) : Option Nat :=
  if 'A' ≤ c ∧ c ≤ 'Z' then some (c.toNat - 0x41)
  else if 'a' ≤ c ∧ c ≤ 'z' then some (c.toNat - 0x61 + 26)
  else if '0' ≤ c ∧ c ≤ '9' then some (c.toNat - 0x30 + 52)
  else if c = '+' then some 62
  else if c = '/' then some 63
  else none

/-- The written form of bytes, as characters. -/
def base64Chars : Bytes → List Char
  | [] => []
  | [a] => [base64Char (a.toNat / 4), base64Char (a.toNat % 4 * 16), '=', '=']
  | [a, b] =>
    [base64Char (a.toNat / 4), base64Char (a.toNat % 4 * 16 + b.toNat / 16),
      base64Char (b.toNat % 16 * 4), '=']
  | a :: b :: c :: rest =>
    base64Char (a.toNat / 4) :: base64Char (a.toNat % 4 * 16 + b.toNat / 16)
      :: base64Char (b.toNat % 16 * 4 + c.toNat / 64) :: base64Char (c.toNat % 64)
      :: base64Chars rest

/-- What the receiver relies on in an engine. -/
class LawfulBase64 [Base64] : Prop where
  /-- The standard alphabet is written, with padding. -/
  encode_eq (bs : Bytes) : Base64.encode bs = String.ofList (base64Chars bs)
  /-- Decoding undoes encoding. -/
  decode?_encode (bs : Bytes) : Base64.decode? (Base64.encode bs) = some bs

/-! ## An engine -/

/-- The written form of bytes. -/
def encodeBase64 (bs : Bytes) : String := String.ofList (base64Chars bs)

/-- The bytes of four characters of the alphabet. -/
def quantum? (a b c d : Char) : Option Bytes := do
  let x ← base64Value? a
  let y ← base64Value? b
  let z ← base64Value? c
  let w ← base64Value? d
  some [UInt8.ofNat (x * 4 + y / 16), UInt8.ofNat (y % 16 * 16 + z / 4), UInt8.ofNat (z % 4 * 64 + w)]

/-- The bytes of the last four characters, where padding may stand. -/
def lastQuantum? (a b c d : Char) : Option Bytes :=
  if d = '=' then do
    let x ← base64Value? a
    let y ← base64Value? b
    if c = '=' then
      if y % 16 = 0 then some [UInt8.ofNat (x * 4 + y / 16)] else none
    else do
      let z ← base64Value? c
      if z % 4 = 0 then
        some [UInt8.ofNat (x * 4 + y / 16), UInt8.ofNat (y % 16 * 16 + z / 4)]
      else none
  else quantum? a b c d

/-- The bytes of a written form, as characters. -/
def base64Bytes? : List Char → Option Bytes
  | [] => some []
  | [a, b, c, d] => lastQuantum? a b c d
  | a :: b :: c :: d :: rest => do
    let q ← quantum? a b c d
    let bs ← base64Bytes? rest
    some (q ++ bs)
  | _ => none

/-- The bytes of a written form. -/
def decodeBase64? (s : String) : Option Bytes := base64Bytes? s.toList

instance : Base64 where
  encode := encodeBase64
  decode? := decodeBase64?

/-! ## Tests -/

example : Base64.encode (encode "Username:") = "VXNlcm5hbWU6" := by decide +kernel

example : Base64.decode? "YQ==" = some [0x61] := by decide +kernel

example : Base64.decode? "YQ=" = none := by decide +kernel

example : Base64.decode? "YR==" = none := by decide +kernel

example : Base64.decode? "YQ==YQ==" = none := by decide +kernel

end SmtpReceiver.Text
