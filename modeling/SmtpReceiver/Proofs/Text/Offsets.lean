import SmtpReceiver.Proofs.Text.Words
import SmtpReceiver.Text.Offset

/-!
# What stands behind a byte offset

A cut takes as many bytes as the offset says (`byteCount_of_splitChars?`).  So a cut at the
size of the first part of a text gives back the parts (`splitChars?_append`).

Commands read what stands `behind` an offset, without the blanks around it.  Blanks at
the end of the text do not change that, wherever the offset falls.  Blanks in front do,
for they count as bytes.
-/

namespace SmtpReceiver.Text

variable {a b cs w : List Char} {n : Nat}

/-! ## Counting -/

/-- The number of bytes of characters. -/
def byteCount : List Char → Nat
  | [] => 0
  | c :: cs => c.utf8Size + byteCount cs

theorem byteLength_eq (s : String) : byteLength s = byteCount s.toList := by
  have hsum : ∀ (cs : List Char) (n : Nat),
      cs.foldl (fun n c => n + c.utf8Size) n = n + byteCount cs := by
    intro cs
    induction cs with
    | nil => exact fun n => (Nat.add_zero n).symm
    | cons c cs ih =>
        intro n
        rw [List.foldl_cons, ih, byteCount, Nat.add_assoc]
  rw [byteLength, hsum, Nat.zero_add]

theorem byteCount_append (a b : List Char) : byteCount (a ++ b) = byteCount a + byteCount b := by
  induction a with
  | nil => exact (Nat.zero_add _).symm
  | cons c a ih => rw [List.cons_append, byteCount, byteCount, ih, Nat.add_assoc]

theorem byteCount_pos (h : cs ≠ []) : 0 < byteCount cs := by
  cases cs with
  | nil => exact absurd rfl h
  | cons c cs => exact Nat.lt_of_lt_of_le c.utf8Size_pos (Nat.le_add_right _ _)

theorem byteCount_map_toUpper (cs : List Char) : byteCount (cs.map Char.toUpper) = byteCount cs := by
  induction cs with
  | nil => rfl
  | cons c cs ih => rw [List.map_cons, byteCount, byteCount, ih, utf8Size_toUpper]

theorem byteCount_of_upper {s t : String} (h : upper s = upper t) :
    byteCount s.toList = byteCount t.toList := by
  have hlist := congrArg String.toList h
  rw [toList_upper, toList_upper] at hlist
  rw [← byteCount_map_toUpper, hlist, byteCount_map_toUpper]

/-! ## Cutting -/

theorem splitChars?_zero (cs : List Char) : splitChars? cs 0 = some ([], cs) := by
  cases cs with
  | nil => rfl
  | cons c cs => rfl

theorem splitChars?_cons (c : Char) (cs : List Char) (hn : 0 < n) :
    splitChars? (c :: cs) n
      = if c.utf8Size ≤ n then
          (splitChars? cs (n - c.utf8Size)).map fun p => (c :: p.1, p.2)
        else none := by
  cases n with
  | zero => exact absurd hn (Nat.lt_irrefl 0)
  | succ n => rfl

theorem splitChars?_append (a b : List Char) :
    splitChars? (a ++ b) (byteCount a) = some (a, b) := by
  induction a with
  | nil => exact splitChars?_zero b
  | cons c a ih =>
      have hle : c.utf8Size ≤ byteCount (c :: a) := Nat.le_add_right _ _
      rw [List.cons_append, splitChars?_cons _ _ (byteCount_pos (List.cons_ne_nil c a)), if_pos hle,
        byteCount, Nat.add_sub_cancel_left, ih]
      rfl

theorem byteCount_of_splitChars? (h : splitChars? cs n = some (a, b)) : byteCount a = n := by
  induction cs generalizing n a with
  | nil =>
      cases n with
      | zero =>
          obtain ⟨rfl, -⟩ := Prod.mk.inj (Option.some.inj h)
          rfl
      | succ n => cases h
  | cons c cs ih =>
      obtain rfl | hn := Nat.eq_zero_or_pos n
      · obtain ⟨rfl, -⟩ := Prod.mk.inj (Option.some.inj h)
        rfl
      · rw [splitChars?_cons c cs hn] at h
        split at h
        next hle =>
          obtain ⟨⟨a', b'⟩, hcut, hpair⟩ := Option.map_eq_some_iff.1 h
          obtain ⟨rfl, rfl⟩ := Prod.mk.inj hpair
          rw [byteCount, ih hcut, Nat.add_sub_cancel' hle]
        next => cases h

/-! ## Behind an offset -/

/-- What stands behind so many bytes, without the blanks around it. -/
def behind (cs : List Char) (n : Nat) : List Char :=
  ((splitChars? cs n).map fun p => trimChars p.2).getD []

theorem trim_dropBytes? (s : String) (n : Nat) :
    ((dropBytes? s n).map trim).getD "" = String.ofList (behind s.toList n) := by
  rw [dropBytes?, behind]
  cases splitChars? s.toList n with
  | none => rfl
  | some p => simp [trim]

theorem behind_append (a b : List Char) : behind (a ++ b) (byteCount a) = trimChars b := by
  rw [behind, splitChars?_append]
  rfl

theorem behind_of_blank (hb : AllBlank b) (n : Nat) : behind b n = [] := by
  rw [behind]
  cases hcut : splitChars? b n with
  | none => rfl
  | some p =>
      obtain ⟨before, later⟩ := p
      have hlater : AllBlank later := by
        intro c hc
        rw [← append_of_splitChars? hcut] at hb
        exact hb c (List.mem_append_right before hc)
      exact trimChars_append_blank hlater []

/-- Blanks at the end of a text do not show behind an offset, even where it falls among them. -/
theorem behind_append_blank (hb : AllBlank b) (cs : List Char) (n : Nat) :
    behind (cs ++ b) n = behind cs n := by
  induction cs generalizing n with
  | nil => rw [List.nil_append, behind_of_blank hb, behind_of_blank (b := []) nofun]
  | cons c cs ih =>
      obtain rfl | hn := Nat.eq_zero_or_pos n
      · exact trimChars_append_blank hb (c :: cs)
      · have hstep : ∀ ds : List Char, behind (c :: ds) n
            = if c.utf8Size ≤ n then behind ds (n - c.utf8Size) else [] := by
          intro ds
          rw [behind, splitChars?_cons c ds hn]
          split
          next =>
            rw [behind, Option.map_map]
            rfl
          next => rfl
        rw [List.cons_append, hstep, hstep, ih]

/-- What stands behind as many bytes as the first word has begins with the end of that word, if
there are blanks in front of it. -/
theorem head?_wordsOf_behind (ha : AllBlank a) (hindent : a ≠ []) (hne : w ≠ [])
    (hw : NoBlank w) {rest : List Char} (hrest : ∀ c ∈ rest.head?, isBlank c = true) :
    ∀ v ∈ (wordsOf (behind (a ++ (w ++ rest)) (byteCount w))).head?, v <:+ w := by
  have hwords : ∀ {d : List Char}, d ≠ [] → d <:+ w →
      ∀ v ∈ (wordsOf (d ++ rest)).head?, v <:+ w := by
    intro d hd hsuffix v hv
    rw [wordsOf_word_append (fun c hc => hw c (hsuffix.subset hc)) hd hrest] at hv
    cases hv
    exact hsuffix
  intro v hv
  rw [behind] at hv
  cases hcut : splitChars? (a ++ (w ++ rest)) (byteCount w) with
  | none =>
      rw [hcut] at hv
      cases hv
  | some p =>
      obtain ⟨before, later⟩ := p
      have hcount := byteCount_of_splitChars? hcut
      have hpos := byteCount_pos hindent
      rw [hcut, Option.map_some, Option.getD_some, wordsOf_trimChars] at hv
      -- The cut is among the blanks, or in the word, for it is too early to be behind it.
      obtain ⟨d, rfl, rfl⟩ | ⟨d, rfl, hsplit⟩ := List.append_eq_append_iff.1 (append_of_splitChars? hcut)
      · have hd : AllBlank d := fun c hc => ha c (List.mem_append_right before hc)
        rw [wordsOf_blank_append hd] at hv
        exact hwords hne (List.suffix_refl w) v hv
      · rw [byteCount_append] at hcount
        obtain ⟨e, rfl, rfl⟩ | ⟨e, rfl, rfl⟩ := List.append_eq_append_iff.1 hsplit
        · rw [byteCount_append] at hcount
          omega
        · rw [byteCount_append] at hcount
          refine hwords ?_ (List.suffix_append d e) v hv
          rintro rfl
          rw [byteCount] at hcount
          omega

end SmtpReceiver.Text
