import Mathlib.Tactic.Common
import SmtpReceiver.Text.Base64
import SmtpReceiver.Text.Blank

/-!
# Texts and bytes, there and back

A text is read back from its UTF-8 form (`decode_encode`), and the engine at hand
reads bytes back from their base64 form (`decodeBase64?_encodeBase64`).

The first is shown one character at a time.  The lead byte of a character says
how many bytes are to come, and each of them adds six bits.  What keeps the range
of the first of these bytes is that the form is the shortest one, and that no
character is a surrogate or above U+10FFFF.

A base64 form has no blanks, so it is one word, and trimming leaves it alone.
-/

namespace SmtpReceiver.Text

/-! ## UTF-8 -/

section Utf8

variable {n bits : Nat} {low high : UInt8} {rest : Bytes}

theorem toNat_tail (h : n < 64) : (UInt8.ofNat (n + 128)).toNat = n + 128 :=
  Nat.mod_eq_of_lt (by omega)

/-- The last byte of a character. -/
theorem decodeFrom_last (h : n < 64) (hlow : low.toNat ≤ n + 128) (hhigh : n + 128 ≤ high.toNat) :
    decodeFrom (some ⟨1, bits, low, high⟩) (UInt8.ofNat (n + 128) :: rest)
      = Char.ofNat (bits * 64 + n) :: decodeFrom none rest := by
  have hrange : low ≤ UInt8.ofNat (n + 128) ∧ UInt8.ofNat (n + 128) ≤ high := by
    rw [UInt8.le_iff_toNat_le, UInt8.le_iff_toNat_le, toNat_tail h]
    exact ⟨hlow, hhigh⟩
  simp only [decodeFrom, advance, if_pos hrange, toNat_tail h, Nat.add_sub_cancel, if_true]
  rfl

/-- A byte within a character. -/
theorem decodeFrom_more (missing : Nat) (h : n < 64) (hlow : low.toNat ≤ n + 128)
    (hhigh : n + 128 ≤ high.toNat) :
    decodeFrom (some ⟨missing + 2, bits, low, high⟩) (UInt8.ofNat (n + 128) :: rest)
      = decodeFrom (some ⟨missing + 1, bits * 64 + n, 0x80, 0xBF⟩) rest := by
  have hrange : low ≤ UInt8.ofNat (n + 128) ∧ UInt8.ofNat (n + 128) ≤ high := by
    rw [UInt8.le_iff_toNat_le, UInt8.le_iff_toNat_le, toNat_tail h]
    exact ⟨hlow, hhigh⟩
  have hmissing : missing + 2 ≠ 1 := by omega
  simp only [decodeFrom, advance, if_pos hrange, toNat_tail h, Nat.add_sub_cancel, if_neg hmissing]
  rfl

/-- A byte below U+0080 is a character. -/
theorem decodeFrom_single (h : n < 128) :
    decodeFrom none (UInt8.ofNat n :: rest) = Char.ofNat n :: decodeFrom none rest := by
  have hn : (UInt8.ofNat n).toNat = n := Nat.mod_eq_of_lt (by omega)
  simp only [decodeFrom, advance, lead, hn, if_pos h]
  rfl

theorem decodeFrom_lead2 (hlow : 2 ≤ n) (hhigh : n < 32) :
    decodeFrom none (UInt8.ofNat (n + 192) :: rest)
      = decodeFrom (some ⟨1, n, 0x80, 0xBF⟩) rest := by
  have hn : (UInt8.ofNat (n + 192)).toNat = n + 192 := Nat.mod_eq_of_lt (by omega)
  simp only [decodeFrom, advance, lead, hn]
  rw [if_neg (by omega), if_neg (by omega), if_pos (by omega), Nat.add_sub_cancel]
  rfl

/-- The first byte behind the lead of three is bounded below by the shortest form, and above by
the surrogates. -/
theorem decodeFrom_lead3 (h : n < 16) :
    decodeFrom none (UInt8.ofNat (n + 224) :: rest)
      = decodeFrom (some ⟨2, n, if n = 0 then 0xA0 else 0x80, if n = 13 then 0x9F else 0xBF⟩) rest := by
  have hn : (UInt8.ofNat (n + 224)).toNat = n + 224 := Nat.mod_eq_of_lt (by omega)
  simp only [decodeFrom, advance, lead, hn]
  rw [if_neg (by omega), if_neg (by omega), if_neg (by omega)]
  by_cases hzero : n = 0
  · subst hzero
    rfl
  · rw [if_neg (by omega), if_neg hzero]
    by_cases hthirteen : n = 13
    · subst hthirteen
      rfl
    · rw [if_neg (by omega), if_pos (by omega), if_neg hthirteen, Nat.add_sub_cancel]
      rfl

/-- The first byte behind the lead of four is bounded below by the shortest form, and above by
the last code point. -/
theorem decodeFrom_lead4 (h : n ≤ 4) :
    decodeFrom none (UInt8.ofNat (n + 240) :: rest)
      = decodeFrom (some ⟨3, n, if n = 0 then 0x90 else 0x80, if n = 4 then 0x8F else 0xBF⟩) rest := by
  rcases n with _ | _ | _ | _ | _ | n
  · rfl
  · rfl
  · rfl
  · rfl
  · rfl
  · omega

theorem decodeFrom_two (hlow : 0x80 ≤ n) (hhigh : n < 0x800) :
    decodeFrom none
        (UInt8.ofNat (n / 64 % 32 + 192) :: UInt8.ofNat (n % 64 + 128) :: rest)
      = Char.ofNat n :: decodeFrom none rest := by
  have hbits : n / 64 % 32 * 64 + n % 64 = n := by omega
  rw [decodeFrom_lead2 (by omega) (by omega), decodeFrom_last (by omega) (by simp) (by simp; omega),
    hbits]

theorem decodeFrom_three (hlow : 0x800 ≤ n) (hhigh : n < 0x10000)
    (hvalid : n < 0xD800 ∨ 0xDFFF < n) :
    decodeFrom none
        (UInt8.ofNat (n / 4096 % 16 + 224) :: UInt8.ofNat (n / 64 % 64 + 128)
          :: UInt8.ofNat (n % 64 + 128) :: rest)
      = Char.ofNat n :: decodeFrom none rest := by
  have hbits : (n / 4096 % 16 * 64 + n / 64 % 64) * 64 + n % 64 = n := by omega
  have hshortest : (if n / 4096 % 16 = 0 then (0xA0 : UInt8) else 0x80).toNat ≤ n / 64 % 64 + 128 := by
    split
    next => show 160 ≤ _; omega
    next => show 128 ≤ _; omega
  have hsurrogate : n / 64 % 64 + 128 ≤ (if n / 4096 % 16 = 13 then (0x9F : UInt8) else 0xBF).toNat := by
    split
    next => show _ ≤ 159; omega
    next => show _ ≤ 191; omega
  rw [decodeFrom_lead3 (by omega), decodeFrom_more 0 (by omega) hshortest hsurrogate,
    decodeFrom_last (by omega) (by simp) (by simp; omega), hbits]

theorem decodeFrom_four (hlow : 0x10000 ≤ n) (hhigh : n < 0x110000) :
    decodeFrom none
        (UInt8.ofNat (n / 262144 % 8 + 240) :: UInt8.ofNat (n / 4096 % 64 + 128)
          :: UInt8.ofNat (n / 64 % 64 + 128) :: UInt8.ofNat (n % 64 + 128) :: rest)
      = Char.ofNat n :: decodeFrom none rest := by
  have hbits : ((n / 262144 % 8 * 64 + n / 4096 % 64) * 64 + n / 64 % 64) * 64 + n % 64 = n := by
    omega
  have hshortest :
      (if n / 262144 % 8 = 0 then (0x90 : UInt8) else 0x80).toNat ≤ n / 4096 % 64 + 128 := by
    split
    next => show 144 ≤ _; omega
    next => show 128 ≤ _; omega
  have hlast :
      n / 4096 % 64 + 128 ≤ (if n / 262144 % 8 = 4 then (0x8F : UInt8) else 0xBF).toNat := by
    split
    next => show _ ≤ 143; omega
    next => show _ ≤ 191; omega
  rw [decodeFrom_lead4 (by omega), decodeFrom_more 1 (by omega) hshortest hlast,
    decodeFrom_more 0 (by omega) (by simp) (by simp; omega),
    decodeFrom_last (by omega) (by simp) (by simp; omega), hbits]

/-- A character is read back, whatever follows it. -/
theorem decodeFrom_utf8EncodeChar (c : Char) (rest : Bytes) :
    decodeFrom none (String.utf8EncodeChar c ++ rest) = c :: decodeFrom none rest := by
  have hvalid : c.toNat < 0xD800 ∨ 0xDFFF < c.toNat ∧ c.toNat < 0x110000 := c.valid
  have hchar : c :: decodeFrom none rest = Char.ofNat c.toNat :: decodeFrom none rest := by
    rw [Char.ofNat_toNat]
  have htoNat : c.val.toNat = c.toNat := rfl
  rw [hchar, String.utf8EncodeChar]
  simp only [htoNat]
  split
  next h => exact decodeFrom_single (by omega)
  next h =>
    split
    next h' => exact decodeFrom_two (by omega) (by omega)
    next h' =>
      split
      next h'' => exact decodeFrom_three (by omega) (by omega) (by omega)
      next h'' => exact decodeFrom_four (by omega) (by omega)

end Utf8

theorem decodeFrom_encode (cs : List Char) :
    decodeFrom none (cs.flatMap String.utf8EncodeChar) = cs := by
  induction cs with
  | nil => rfl
  | cons c cs ih => rw [List.flatMap_cons, decodeFrom_utf8EncodeChar, ih]

/-- A text is read back from its UTF-8 form. -/
theorem decode_encode (s : String) : decode (encode s) = s := by
  rw [decode, encode, decodeFrom_encode, String.ofList_toList]

theorem encode_append (s t : String) : encode (s ++ t) = encode s ++ encode t := by
  simp [encode]

theorem zero_ne_ofNat {n : Nat} (hlow : 0 < n) (hhigh : n < 256) : (0 : UInt8) ≠ UInt8.ofNat n := by
  intro h
  have hnat : 0 = n % 256 := congrArg UInt8.toNat h
  omega

theorem zero_not_mem_utf8EncodeChar {c : Char} (hc : c ≠ '\u0000') :
    (0 : UInt8) ∉ String.utf8EncodeChar c := by
  have hpos : 0 < c.toNat := by
    refine Nat.pos_of_ne_zero fun hzero => hc ?_
    rw [← Char.ofNat_toNat c, hzero]
  have htoNat : c.val.toNat = c.toNat := rfl
  rw [String.utf8EncodeChar]
  simp only [htoNat]
  split
  next =>
    simp only [List.mem_singleton]
    exact zero_ne_ofNat hpos (by omega)
  next =>
    split
    next =>
      simp only [List.mem_cons, List.not_mem_nil, or_false, not_or]
      exact ⟨zero_ne_ofNat (by omega) (by omega), zero_ne_ofNat (by omega) (by omega)⟩
    next =>
      split
      next =>
        simp only [List.mem_cons, List.not_mem_nil, or_false, not_or]
        exact ⟨zero_ne_ofNat (by omega) (by omega), zero_ne_ofNat (by omega) (by omega),
          zero_ne_ofNat (by omega) (by omega)⟩
      next =>
        simp only [List.mem_cons, List.not_mem_nil, or_false, not_or]
        exact ⟨zero_ne_ofNat (by omega) (by omega), zero_ne_ofNat (by omega) (by omega),
          zero_ne_ofNat (by omega) (by omega), zero_ne_ofNat (by omega) (by omega)⟩

/-- A NUL byte comes from a NUL alone. -/
theorem zero_not_mem_encode {s : String} (h : '\u0000' ∉ s.toList) : (0 : UInt8) ∉ encode s := by
  intro hmem
  obtain ⟨c, hc, hzero⟩ := List.mem_flatMap.1 hmem
  refine zero_not_mem_utf8EncodeChar ?_ hzero
  rintro rfl
  exact h hc

/-! ## Base64 -/

theorem base64Value?_base64Char : ∀ n < 64, base64Value? (base64Char n) = some n := by
  decide

theorem base64Char_ne_pad : ∀ n < 64, base64Char n ≠ '=' := by decide

theorem isBlank_base64Char : ∀ n < 64, isBlank (base64Char n) = false := by decide

/-- Three bytes are read back from their four characters. -/
theorem quantum?_base64Char (a b c : UInt8) :
    quantum? (base64Char (a.toNat / 4)) (base64Char (a.toNat % 4 * 16 + b.toNat / 16))
      (base64Char (b.toNat % 16 * 4 + c.toNat / 64)) (base64Char (c.toNat % 64))
      = some [a, b, c] := by
  have ha := a.toNat_lt
  have hb := b.toNat_lt
  have hc := c.toNat_lt
  have hfirst : a.toNat / 4 * 4 + (a.toNat % 4 * 16 + b.toNat / 16) / 16 = a.toNat := by omega
  have hsecond : (a.toNat % 4 * 16 + b.toNat / 16) % 16 * 16
      + (b.toNat % 16 * 4 + c.toNat / 64) / 4 = b.toNat := by omega
  have hthird : (b.toNat % 16 * 4 + c.toNat / 64) % 4 * 64 + c.toNat % 64 = c.toNat := by omega
  simp only [quantum?, base64Value?_base64Char _ (show a.toNat / 4 < 64 by omega),
    base64Value?_base64Char _ (show a.toNat % 4 * 16 + b.toNat / 16 < 64 by omega),
    base64Value?_base64Char _ (show b.toNat % 16 * 4 + c.toNat / 64 < 64 by omega),
    base64Value?_base64Char _ (show c.toNat % 64 < 64 by omega), Option.bind_eq_bind,
    Option.bind_some, hfirst, hsecond, hthird, UInt8.ofNat_toNat]

theorem base64Bytes?_quantum {a b c d : Char} (hd : d ≠ '=') (rest : List Char) :
    base64Bytes? (a :: b :: c :: d :: rest)
      = (quantum? a b c d).bind fun q => (base64Bytes? rest).map (q ++ ·) := by
  cases rest with
  | nil =>
      simp only [base64Bytes?, lastQuantum?, if_neg hd]
      cases quantum? a b c d with
      | none => rfl
      | some q => exact congrArg some (List.append_nil q).symm
  | cons e rest =>
      simp only [base64Bytes?]
      cases quantum? a b c d with
      | none => rfl
      | some q => cases base64Bytes? (e :: rest) <;> rfl

theorem base64Bytes?_base64Chars (bs : Bytes) : base64Bytes? (base64Chars bs) = some bs := by
  induction bs using base64Chars.induct with
  | case1 => rfl
  | case2 a =>
      have ha := a.toNat_lt
      have hvalue : a.toNat / 4 * 4 + a.toNat % 4 * 16 / 16 = a.toNat := by omega
      have hbits : a.toNat % 4 * 16 % 16 = 0 := by omega
      simp only [base64Chars, base64Bytes?, lastQuantum?,
        base64Value?_base64Char _ (show a.toNat / 4 < 64 by omega),
        base64Value?_base64Char _ (show a.toNat % 4 * 16 < 64 by omega), Option.bind_eq_bind,
        Option.bind_some, if_true, hbits, hvalue, UInt8.ofNat_toNat]
  | case3 a b =>
      have ha := a.toNat_lt
      have hb := b.toNat_lt
      have hfirst : a.toNat / 4 * 4 + (a.toNat % 4 * 16 + b.toNat / 16) / 16 = a.toNat := by omega
      have hsecond : (a.toNat % 4 * 16 + b.toNat / 16) % 16 * 16 + b.toNat % 16 * 4 / 4
          = b.toNat := by omega
      have hbits : b.toNat % 16 * 4 % 4 = 0 := by omega
      have hthird : b.toNat % 16 * 4 < 64 := by omega
      simp only [base64Chars, base64Bytes?, lastQuantum?, if_neg (base64Char_ne_pad _ hthird),
        base64Value?_base64Char _ (show a.toNat / 4 < 64 by omega),
        base64Value?_base64Char _ (show a.toNat % 4 * 16 + b.toNat / 16 < 64 by omega),
        base64Value?_base64Char _ hthird, Option.bind_eq_bind, Option.bind_some, if_true, hbits,
        hfirst, hsecond, UInt8.ofNat_toNat]
  | case4 a b c rest ih =>
      have hlast : c.toNat % 64 < 64 := Nat.mod_lt _ (by omega)
      rw [base64Chars, base64Bytes?_quantum (base64Char_ne_pad _ hlast), quantum?_base64Char, ih]
      rfl

/-- Bytes are read back from their base64 form. -/
theorem decodeBase64?_encodeBase64 (bs : Bytes) : decodeBase64? (encodeBase64 bs) = some bs := by
  rw [decodeBase64?, encodeBase64, String.toList_ofList, base64Bytes?_base64Chars]

instance : LawfulBase64 where
  encode_eq _ := rfl
  decode?_encode := decodeBase64?_encodeBase64

theorem isBlank_of_mem_base64Chars (bs : Bytes) : ∀ c ∈ base64Chars bs, isBlank c = false := by
  induction bs using base64Chars.induct with
  | case1 => nofun
  | case2 a =>
      have ha := a.toNat_lt
      simp only [base64Chars, List.forall_mem_cons]
      refine ⟨isBlank_base64Char _ (by omega), isBlank_base64Char _ (by omega), rfl, rfl, nofun⟩
  | case3 a b =>
      have ha := a.toNat_lt
      have hb := b.toNat_lt
      simp only [base64Chars, List.forall_mem_cons]
      refine ⟨isBlank_base64Char _ (by omega), isBlank_base64Char _ (by omega),
        isBlank_base64Char _ (by omega), rfl, nofun⟩
  | case4 a b c rest ih =>
      have ha := a.toNat_lt
      have hb := b.toNat_lt
      have hc := c.toNat_lt
      simp only [base64Chars, List.forall_mem_cons]
      exact ⟨isBlank_base64Char _ (by omega), isBlank_base64Char _ (by omega),
        isBlank_base64Char _ (by omega), isBlank_base64Char _ (by omega), ih⟩

/-! ## Texts without blanks -/

section Blank

variable {cs : List Char}

theorem dropWhile_isBlank (h : ∀ c ∈ cs, isBlank c = false) : cs.dropWhile isBlank = cs := by
  cases cs with
  | nil => rfl
  | cons c cs => rw [List.dropWhile_cons, h c List.mem_cons_self, if_neg Bool.false_ne_true]

theorem trimChars_of_no_blank (h : ∀ c ∈ cs, isBlank c = false) : trimChars cs = cs := by
  have hreverse : ∀ c ∈ cs.reverse, isBlank c = false := fun c hc => h c (List.mem_reverse.1 hc)
  rw [trimChars, dropWhile_isBlank h, dropWhile_isBlank hreverse, List.reverse_reverse]

theorem wordsOf_of_no_blank (c : Char) : ∀ {cs : List Char},
    (∀ d ∈ c :: cs, isBlank d = false) → wordsOf (c :: cs) = [c :: cs]
  | [], h => by
      simp only [wordsOf, h c List.mem_cons_self]
      rfl
  | d :: cs, h => by
      have hcs : ∀ e ∈ d :: cs, isBlank e = false := fun e he => h e (List.mem_cons_of_mem c he)
      have hc := h c List.mem_cons_self
      have hd := hcs d List.mem_cons_self
      rw [wordsOf, hc]
      simp only [hd, Bool.false_eq_true, if_false, wordsOf_of_no_blank d hcs]
      rfl

end Blank

section Base64

variable [Base64] [LawfulBase64]

theorem trim_base64 (bs : Bytes) : trim (Base64.encode bs) = Base64.encode bs := by
  rw [trim, LawfulBase64.encode_eq, String.toList_ofList,
    trimChars_of_no_blank (isBlank_of_mem_base64Chars bs)]

/-- A base64 form is one word, unless it is empty. -/
theorem words_base64 {bs : Bytes} (h : bs ≠ []) :
    words (Base64.encode bs) = [Base64.encode bs] := by
  have hblank := isBlank_of_mem_base64Chars bs
  have hne : base64Chars bs ≠ [] := by
    intro hnil
    have hread := base64Bytes?_base64Chars bs
    rw [hnil] at hread
    exact h (Option.some.inj hread).symm
  rw [words, LawfulBase64.encode_eq, String.toList_ofList]
  cases hchars : base64Chars bs with
  | nil => exact absurd hchars hne
  | cons c cs =>
      rw [hchars] at hblank
      rw [wordsOf_of_no_blank c hblank]
      rfl

end Base64

end SmtpReceiver.Text
