import SmtpReceiver.Address
import SmtpReceiver.Proofs.Text.Words

/-!
# The parts of an address

An address is cut at its last at sign, and each side at every dot.  What stands behind the last
at sign has none (`splitLast?_eq_some`), and the parts are those of `List.splitOn`, so putting
them together again undoes the cutting (`isDotted_iff`).

The name of the host itself is a label in whatever case it is written.  To name it apart lets
nothing else in (`isDomain_eq`).

All characters of an address are *harmless*: none of them ends what an address is quoted in
(`harmless_of_isAddress`).
-/

namespace SmtpReceiver

open Text (isBlank)

variable {sep : Char} {cs : List Char}

/-! ## The last separator -/

theorem splitLast?_eq_none : splitLast? sep cs = none ↔ sep ∉ cs := by
  induction cs with
  | nil => exact iff_of_true rfl List.not_mem_nil
  | cons c cs ih =>
      rw [splitLast?, List.mem_cons, not_or]
      cases hcut : splitLast? sep cs with
      | some p => exact iff_of_false nofun fun h => by rw [ih.2 h.2] at hcut; cases hcut
      | none =>
          simp only [ih.1 hcut, not_false_eq_true, and_true]
          split
          next hsep => exact iff_of_false nofun fun h => h hsep.symm
          next hsep => exact iff_of_true rfl fun h => hsep h.symm

theorem eq_of_splitLast? {before later : List Char}
    (h : splitLast? sep cs = some (before, later)) : cs = before ++ sep :: later ∧ sep ∉ later := by
  induction cs generalizing before with
  | nil => cases h
  | cons c cs ih =>
      rw [splitLast?] at h
      cases hcut : splitLast? sep cs with
      | some p =>
          rw [hcut] at h
          obtain ⟨rfl, rfl⟩ := Prod.mk.inj (Option.some.inj h)
          obtain ⟨hcs, hlater⟩ := ih hcut
          exact ⟨by rw [List.cons_append, ← hcs], hlater⟩
      | none =>
          rw [hcut] at h
          simp only at h
          split at h
          next hsep =>
            obtain ⟨rfl, rfl⟩ := Prod.mk.inj (Option.some.inj h)
            exact ⟨by rw [hsep, List.nil_append], splitLast?_eq_none.1 hcut⟩
          next => cases h

theorem splitLast?_append {later : List Char} (h : sep ∉ later) (before : List Char) :
    splitLast? sep (before ++ sep :: later) = some (before, later) := by
  induction before with
  | nil => rw [List.nil_append, splitLast?, splitLast?_eq_none.2 h, if_pos rfl]
  | cons c before ih => rw [List.cons_append, splitLast?, ih]

/-! ## Parts between dots -/

theorem partsOf_eq_splitOn (sep : Char) (cs : List Char) : partsOf sep cs = cs.splitOn sep := by
  induction cs with
  | nil => rfl
  | cons c cs ih => simp only [partsOf, ih, List.splitOn_cons_eq_if_modifyHead, beq_iff_eq]

theorem partsOf_ne_nil (sep : Char) (cs : List Char) : partsOf sep cs ≠ [] := by
  rw [partsOf_eq_splitOn]
  exact List.splitOn_ne_nil sep cs

/-- What is true of the characters of all parts is true of all characters but the separators. -/
theorem eq_sep_or_of_partsOf {p : Char → Prop}
    (h : ∀ part ∈ partsOf sep cs, ∀ c ∈ part, p c) : ∀ c ∈ cs, c = sep ∨ p c := by
  induction cs with
  | nil => exact List.forall_mem_nil _
  | cons d cs ih =>
      rw [partsOf] at h
      split at h
      next hsep => exact List.forall_mem_cons.2 ⟨.inl hsep, ih (List.forall_mem_cons.1 h).2⟩
      next =>
        obtain ⟨part, parts, hrest⟩ := List.exists_cons_of_ne_nil (partsOf_ne_nil sep cs)
        rw [hrest] at h ih
        obtain ⟨hpart, hparts⟩ := List.forall_mem_cons.1 h
        obtain ⟨hd, hpart⟩ := List.forall_mem_cons.1 hpart
        exact List.forall_mem_cons.2 ⟨.inr hd, ih (List.forall_mem_cons.2 ⟨hpart, hparts⟩)⟩

section Dotted

variable {member : Char → Bool}

/-- Without characters there is one part and it is empty, so the parts say all. -/
theorem isDotted_iff_parts : isDotted member cs = true ↔
    ∀ part ∈ partsOf '.' cs, part ≠ [] ∧ ∀ c ∈ part, member c = true := by
  cases cs with
  | nil => simp [isDotted, partsOf]
  | cons c cs => simp [isDotted]

/-- Only dots and characters of the class are there. -/
theorem mem_of_isDotted (h : isDotted member cs = true) : ∀ c ∈ cs, c = '.' ∨ member c = true :=
  eq_sep_or_of_partsOf fun part hpart => (isDotted_iff_parts.1 h part hpart).2

theorem not_mem_of_isDotted {c : Char} (h : isDotted member cs = true) (hdot : c ≠ '.')
    (hc : member c = false) : c ∉ cs := by
  intro hmem
  obtain heq | hmember := mem_of_isDotted h c hmem
  · exact hdot heq
  · rw [hc] at hmember
    cases hmember

/-- Non-empty texts of a class without dots, put together with dots, are what is dotted. -/
theorem isDotted_iff (hdot : member '.' = false) : isDotted member cs = true ↔
    ∃ parts : List String, parts ≠ [] ∧
      (∀ part ∈ parts, part ≠ "" ∧ ∀ c ∈ part.toList, member c = true) ∧
      cs = (".".intercalate parts).toList := by
  rw [isDotted_iff_parts, partsOf_eq_splitOn]
  constructor
  · intro h
    refine ⟨(cs.splitOn '.').map String.ofList, ?_, ?_, ?_⟩
    · exact fun hnil => List.splitOn_ne_nil '.' cs (List.map_eq_nil_iff.1 hnil)
    · simpa using h
    · have hid : String.toList ∘ String.ofList = id := funext fun _ => String.toList_ofList
      rw [String.toList_intercalate, List.map_map, hid, List.map_id]
      exact (List.intercalate_splitOn '.').symm
  · rintro ⟨parts, hne, hparts, rfl⟩
    have hchars : ∀ part ∈ parts.map String.toList, part ≠ [] ∧ ∀ c ∈ part, member c = true := by
      simpa using hparts
    have hfree : ∀ part ∈ parts.map String.toList, '.' ∉ part := fun part hpart hmem => by
      rw [(hchars part hpart).2 '.' hmem] at hdot
      cases hdot
    have hsplit : (".".toList.intercalate (parts.map String.toList)).splitOn '.'
        = parts.map String.toList :=
      List.splitOn_intercalate '.' hfree fun hnil => hne (List.map_eq_nil_iff.1 hnil)
    rw [String.toList_intercalate, hsplit]
    exact hchars

end Dotted

/-! ## The name of the host itself -/

theorem isAlphanum_toUpper (c : Char) : c.toUpper.isAlphanum = c.isAlphanum := by
  have hletters : ∀ n < 26,
      (Char.ofNat (n + 97)).toUpper.isAlphanum = (Char.ofNat (n + 97)).isAlphanum := by
    decide
  obtain hc | ⟨n, hn, rfl⟩ := Text.toUpper_eq_self_or c
  · rw [hc]
  · exact hletters n hn

/-- A word of letters and digits is a label, in whatever case it is written. -/
theorem isDotted_of_sameFold {name : String} (hne : name ≠ "")
    (hname : ∀ c ∈ name.toList, c.isAlphanum = true)
    (h : Text.sameFold (String.ofList cs) name = true) : isDotted isLabelChar cs = true := by
  have hupper : cs.map Char.toUpper = name.toList.map Char.toUpper := by
    rw [← Text.toList_upper, ← eq_of_beq h, Text.toList_upper, String.toList_ofList]
  have hcs : ∀ c ∈ cs, c.isAlphanum = true := by
    intro c hc
    obtain ⟨d, hd, heq⟩ := List.mem_map.1 (hupper ▸ List.mem_map_of_mem hc)
    rw [← isAlphanum_toUpper, ← heq, isAlphanum_toUpper, hname d hd]
  have hdot : '.' ∉ cs := fun hmem => absurd (hcs '.' hmem) (by decide)
  have hnil : cs ≠ [] := by
    rintro rfl
    exact hne (String.toList_eq_nil_iff.1 (List.map_eq_nil_iff.1 hupper.symm))
  rw [isDotted_iff_parts, partsOf_eq_splitOn, List.splitOn_eq_singleton hdot]
  refine List.forall_mem_singleton.2 ⟨hnil, fun c hc => ?_⟩
  rw [isLabelChar, hcs c hc, Bool.true_or]

/-- The name of the host itself is a label, so the labels alone make a domain. -/
theorem isDomain_eq (cs : List Char) : isDomain cs = isDotted isLabelChar cs := by
  have hname : ownName.toList.all Char.isAlphanum = true := by decide
  rw [isDomain]
  cases hown : Text.sameFold (String.ofList cs) ownName with
  | true => exact (isDotted_of_sameFold (by decide) (List.all_eq_true.1 hname) hown).symm
  | false => rfl

/-! ## Both sides -/

/-- No label has an at sign, so what is before any at sign that labels follow is the local part. -/
theorem isAddress_iff {s : String} : isAddress s = true ↔ ∃ localPart domain : List Char,
    s.toList = localPart ++ '@' :: domain ∧ isDotted isAtomChar localPart = true ∧
      isDotted isLabelChar domain = true := by
  unfold isAddress
  constructor
  · intro h
    split at h
    next localPart domain hcut =>
      rw [Bool.and_eq_true, isDomain_eq] at h
      exact ⟨localPart, domain, (eq_of_splitLast? hcut).1, h⟩
    next => cases h
  · rintro ⟨localPart, domain, hs, hlocal, hdomain⟩
    have hbehind : '@' ∉ domain := not_mem_of_isDotted hdomain (by decide) (by decide)
    rw [hs, splitLast?_append hbehind localPart]
    simp only [isDomain_eq, hlocal, hdomain, Bool.and_self]

/-- No atom has an at sign either, so there is no other. -/
theorem count_at {s : String} (h : isAddress s = true) : s.toList.count '@' = 1 := by
  obtain ⟨localPart, domain, hs, hlocal, hdomain⟩ := isAddress_iff.1 h
  have hbefore : '@' ∉ localPart := not_mem_of_isDotted hlocal (by decide) (by decide)
  have hbehind : '@' ∉ domain := not_mem_of_isDotted hdomain (by decide) (by decide)
  rw [hs, List.count_append, List.count_cons_self, List.count_eq_zero_of_not_mem hbefore,
    List.count_eq_zero_of_not_mem hbehind]

/-! ## The characters of an address -/

/-- A visible character of ASCII that is no bracket and no double quote. -/
structure Harmless (c : Char) : Prop where
  ascii : c.toNat < 128
  not_blank : isBlank c = false
  not_control : 32 ≤ c.toNat ∧ c.toNat ≠ 127
  not_bracket : c ≠ '<' ∧ c ≠ '>'
  not_quote : c ≠ '"'

/-- A character that may stand in an address. -/
def isAddressChar (c : Char) : Bool := c == '@' || c == '.' || isAtomChar c || isLabelChar c

theorem isAddressChar_of_isAddress {s : String} (h : isAddress s = true) :
    ∀ c ∈ s.toList, isAddressChar c = true := by
  obtain ⟨localPart, domain, hs, hlocal, hdomain⟩ := isAddress_iff.1 h
  simp only [hs, List.forall_mem_append, List.forall_mem_cons]
  refine ⟨fun c hc => ?_, by decide, fun c hc => ?_⟩
  · obtain hdot | hatom := mem_of_isDotted hlocal c hc
    · simp [isAddressChar, hdot]
    · simp [isAddressChar, hatom]
  · obtain hdot | hlabel := mem_of_isDotted hdomain c hc
    · simp [isAddressChar, hdot]
    · simp [isAddressChar, hlabel]

theorem toNat_lt_of_isAlphanum {c : Char} (h : c.isAlphanum = true) : c.toNat < 128 := by
  have hbound : ∀ d : Char, c.val ≤ d.val → d.toNat < 128 → c.toNat < 128 :=
    fun d hle hd => Nat.lt_of_le_of_lt (UInt32.le_iff_toNat_le.1 hle) hd
  obtain hletter | hdigit : c.isAlpha = true ∨ c.isDigit = true := Bool.or_eq_true_iff.1 h
  · obtain hupper | hlower : c.isUpper = true ∨ c.isLower = true := Bool.or_eq_true_iff.1 hletter
    · exact hbound 'Z' (of_decide_eq_true hupper).2 (by decide)
    · exact hbound 'z' (of_decide_eq_true (Bool.and_eq_true_iff.1 hlower).2) (by decide)
  · exact hbound '9' (of_decide_eq_true (Bool.and_eq_true_iff.1 hdigit).2) (by decide)

theorem toNat_lt_of_isAddressChar {c : Char} (h : isAddressChar c = true) : c.toNat < 128 := by
  have hsymbols : (atomSymbols.all fun c => c.toNat < 128) = true := by decide
  simp only [isAddressChar, isAtomChar, isLabelChar, Bool.or_eq_true, beq_iff_eq,
    List.contains_eq_mem, decide_eq_true_eq] at h
  rcases h with ((rfl | rfl) | halnum | hsymbol) | halnum | rfl
  · decide
  · decide
  · exact toNat_lt_of_isAlphanum halnum
  · exact of_decide_eq_true (List.all_eq_true.1 hsymbols c hsymbol)
  · exact toNat_lt_of_isAlphanum halnum
  · decide

theorem harmless_of_isAddressChar {c : Char} (h : isAddressChar c = true) : Harmless c := by
  -- None of them is outside ASCII, so there are 128 characters to try.
  have hascii : ∀ n < 128, isAddressChar (Char.ofNat n) = true →
      isBlank (Char.ofNat n) = false ∧ (32 ≤ n ∧ n ≠ 127) ∧
        (Char.ofNat n ≠ '<' ∧ Char.ofNat n ≠ '>') ∧ Char.ofNat n ≠ '"' := by
    decide
  have hlt := toNat_lt_of_isAddressChar h
  have hmore := hascii c.toNat hlt
  rw [Char.ofNat_toNat] at hmore
  obtain ⟨hblank, hcontrol, hbracket, hquote⟩ := hmore h
  exact ⟨hlt, hblank, hcontrol, hbracket, hquote⟩

/-- No character of an address ends what the address is quoted in. -/
theorem harmless_of_isAddress {s : String} (h : isAddress s = true) :
    ∀ c ∈ s.toList, Harmless c :=
  fun c hc => harmless_of_isAddressChar (isAddressChar_of_isAddress h c hc)

theorem ne_nil_of_isAddress {s : String} (h : isAddress s = true) : s.toList ≠ [] := by
  intro hnil
  rw [isAddress, hnil] at h
  cases h

end SmtpReceiver
