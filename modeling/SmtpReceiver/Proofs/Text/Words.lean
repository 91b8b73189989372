import Mathlib.Data.List.Basic
import Mathlib.Data.List.Induction
import Mathlib.Data.List.TakeWhile
import SmtpReceiver.Proofs.Text.RoundTrip
import SmtpReceiver.Text.Ascii

/-!
# Blanks around words

A text is blanks, then what `trim` leaves of it, then blanks again.  What is left is
*trimmed*: neither its first nor its last character is blank.  So blanks that are added
at either end change neither what `trim` leaves nor the words.

Words stand apart at every blank.  A text that ends before a blank has its words, and
what follows the blank has the others (`wordsOf_append`).

Raising a letter makes no character blank, and leaves none blank that was not.
-/

namespace SmtpReceiver.Text

/-- All characters are blank. -/
def AllBlank (cs : List Char) : Prop := ∀ c ∈ cs, isBlank c = true

/-- No character is blank. -/
def NoBlank (cs : List Char) : Prop := ∀ c ∈ cs, isBlank c = false

-- Over the list, and not over all characters, of which there are finitely many.
instance (cs : List Char) : Decidable (AllBlank cs) := List.decidableBAll _ cs

instance (cs : List Char) : Decidable (NoBlank cs) := List.decidableBAll _ cs

/-- Neither the first nor the last character is blank. -/
structure Trimmed (cs : List Char) : Prop where
  head : ∀ c ∈ cs.head?, isBlank c = false
  last : ∀ c ∈ cs.getLast?, isBlank c = false

/-! ## Trimming -/

section Trimming

variable {a b cs ds : List Char}

theorem trimChars_blank_append (ha : AllBlank a) (cs : List Char) :
    trimChars (a ++ cs) = trimChars cs := by
  rw [trimChars, trimChars, List.dropWhile_append_of_pos ha]

theorem trimChars_append_blank (hb : AllBlank b) (cs : List Char) :
    trimChars (cs ++ b) = trimChars cs := by
  have hreverse : AllBlank b.reverse := fun c hc => hb c (List.mem_reverse.1 hc)
  have hnil : b.dropWhile isBlank = [] := List.dropWhile_eq_nil_iff.2 hb
  rw [trimChars, trimChars, List.dropWhile_append]
  split
  next hempty => rw [hnil, List.isEmpty_iff.1 hempty]
  next => rw [List.reverse_append, List.dropWhile_append_of_pos hreverse]

theorem trimmed_of_noBlank (h : NoBlank cs) : Trimmed cs :=
  ⟨fun c hc => h c (List.mem_of_mem_head? hc), fun c hc => h c (List.mem_of_getLast? hc)⟩

theorem trimChars_of_trimmed (h : Trimmed cs) : trimChars cs = cs := by
  have hstart : ∀ {ds : List Char}, (∀ c ∈ ds.head?, isBlank c = false) →
      ds.dropWhile isBlank = ds := by
    intro ds hds
    cases ds with
    | nil => rfl
    | cons d ds => rw [List.dropWhile_cons, hds d rfl, if_neg Bool.false_ne_true]
  rw [trimChars, hstart h.head, hstart (by rw [List.head?_reverse]; exact h.last),
    List.reverse_reverse]

/-- A text is one that ends in no blank, and then blanks. -/
theorem exists_blank_end (cs : List Char) :
    ∃ ds b, cs = ds ++ b ∧ AllBlank b ∧ ∀ c ∈ ds.getLast?, isBlank c = false := by
  induction cs using List.reverseRecOn with
  | nil => exact ⟨[], [], rfl, nofun, nofun⟩
  | append_singleton cs c ih =>
      cases hc : isBlank c with
      | false =>
          refine ⟨cs ++ [c], [], (List.append_nil _).symm, nofun, ?_⟩
          rw [List.getLast?_concat]
          rintro _ ⟨⟩
          exact hc
      | true =>
          obtain ⟨ds, b, rfl, hb, hds⟩ := ih
          refine ⟨ds, b ++ [c], List.append_assoc _ _ _, ?_, hds⟩
          exact List.forall_mem_append.2 ⟨hb, List.forall_mem_singleton.2 hc⟩

/-- A text is blanks, then one that begins with no blank. -/
theorem exists_blank_start (cs : List Char) :
    ∃ a ds, cs = a ++ ds ∧ AllBlank a ∧ ∀ c ∈ ds.head?, isBlank c = false := by
  induction cs with
  | nil => exact ⟨[], [], rfl, nofun, nofun⟩
  | cons c cs ih =>
      cases hc : isBlank c with
      | false => exact ⟨[], c :: cs, rfl, nofun, by rintro _ ⟨⟩; exact hc⟩
      | true =>
          obtain ⟨a, ds, rfl, ha, hds⟩ := ih
          exact ⟨c :: a, ds, rfl, List.forall_mem_cons.2 ⟨hc, ha⟩, hds⟩

/-- What is trimmed off are blanks. -/
theorem eq_trimChars (cs : List Char) :
    ∃ a b, AllBlank a ∧ AllBlank b ∧ cs = a ++ trimChars cs ++ b := by
  obtain ⟨a, ds, rfl, ha, hhead⟩ := exists_blank_start cs
  obtain ⟨ds, b, rfl, hb, hlast⟩ := exists_blank_end ds
  refine ⟨a, b, ha, hb, ?_⟩
  have htrimmed : Trimmed ds := by
    refine ⟨fun c hc => hhead c ?_, hlast⟩
    rw [Option.mem_def] at hc ⊢
    rw [List.head?_append, hc, Option.some_or]
  rw [trimChars_blank_append ha, trimChars_append_blank hb, trimChars_of_trimmed htrimmed,
    List.append_assoc]

/-- Behind a trimmed text only blanks at the end are trimmed off. -/
theorem Trimmed.trimChars_append (h : Trimmed cs) (hne : cs ≠ []) (rest : List Char) :
    ∃ ds b, rest = ds ++ b ∧ AllBlank b ∧ trimChars (cs ++ rest) = cs ++ ds := by
  obtain ⟨ds, b, rfl, hb, hlast⟩ := exists_blank_end rest
  refine ⟨ds, b, rfl, hb, ?_⟩
  have htrimmed : Trimmed (cs ++ ds) := by
    refine ⟨?_, ?_⟩
    · rw [List.head?_append_of_ne_nil _ hne]
      exact h.head
    · cases ds with
      | nil =>
          rw [List.append_nil]
          exact h.last
      | cons d ds =>
          rw [List.getLast?_append_of_ne_nil _ (List.cons_ne_nil d ds)]
          exact hlast
  rw [← List.append_assoc, trimChars_append_blank hb, trimChars_of_trimmed htrimmed]

end Trimming

/-! ## Words -/

section Words

variable {c d : Char} {a b cs ds w : List Char} {ws : List (List Char)}

theorem wordsOf_cons_of_blank (hc : isBlank c = true) (cs : List Char) :
    wordsOf (c :: cs) = wordsOf cs := by
  rw [wordsOf.eq_def]
  exact if_pos hc

theorem wordsOf_singleton (hc : isBlank c = false) : wordsOf [c] = [[c]] := by
  rw [wordsOf, if_neg (Bool.eq_false_iff.1 hc)]

/-- A word ends at a blank. -/
theorem wordsOf_cons_blank (hc : isBlank c = false) (hd : isBlank d = true) (cs : List Char) :
    wordsOf (c :: d :: cs) = [c] :: wordsOf (d :: cs) := by
  rw [wordsOf, if_neg (Bool.eq_false_iff.1 hc), if_pos hd]

/-- A word goes on as long as there is no blank. -/
theorem wordsOf_cons_cons (hc : isBlank c = false) (hd : isBlank d = false) (cs : List Char) :
    wordsOf (c :: d :: cs) = (wordsOf (d :: cs)).modifyHead (c :: ·) := by
  rw [wordsOf, if_neg (Bool.eq_false_iff.1 hc), if_neg (Bool.eq_false_iff.1 hd)]

theorem wordsOf_ne_nil (hc : isBlank c = false) (cs : List Char) : wordsOf (c :: cs) ≠ [] := by
  induction cs generalizing c with
  | nil =>
      rw [wordsOf_singleton hc]
      exact List.cons_ne_nil _ _
  | cons d cs ih =>
      cases hd : isBlank d with
      | true =>
          rw [wordsOf_cons_blank hc hd]
          exact List.cons_ne_nil _ _
      | false =>
          rw [wordsOf_cons_cons hc hd]
          obtain ⟨w, ws, hws⟩ := List.exists_cons_of_ne_nil (ih hd)
          rw [hws]
          exact List.cons_ne_nil _ _

/-- Words stand apart at a blank. -/
theorem wordsOf_append (hd : isBlank d = true) (cs ds : List Char) :
    wordsOf (cs ++ d :: ds) = wordsOf cs ++ wordsOf ds := by
  induction cs with
  | nil => exact wordsOf_cons_of_blank hd ds
  | cons c cs ih =>
      cases hc : isBlank c with
      | true => rw [List.cons_append, wordsOf_cons_of_blank hc, wordsOf_cons_of_blank hc, ih]
      | false =>
          cases cs with
          | nil =>
              rw [wordsOf_singleton hc]
              exact (wordsOf_cons_blank hc hd ds).trans
                (congrArg ([c] :: ·) (wordsOf_cons_of_blank hd ds))
          | cons e cs =>
              rw [List.cons_append] at ih ⊢
              rw [List.cons_append]
              cases he : isBlank e with
              | true => rw [wordsOf_cons_blank hc he, wordsOf_cons_blank hc he, ih, List.cons_append]
              | false =>
                  obtain ⟨w, ws, hws⟩ := List.exists_cons_of_ne_nil (wordsOf_ne_nil he cs)
                  rw [wordsOf_cons_cons hc he, wordsOf_cons_cons hc he, ih, hws]
                  rfl

theorem wordsOf_of_blank (hb : AllBlank b) : wordsOf b = [] := by
  induction b with
  | nil => rfl
  | cons c b ih =>
      obtain ⟨hc, hb⟩ := List.forall_mem_cons.1 hb
      rw [wordsOf_cons_of_blank hc, ih hb]

theorem wordsOf_blank_append (ha : AllBlank a) (cs : List Char) :
    wordsOf (a ++ cs) = wordsOf cs := by
  induction a with
  | nil => rfl
  | cons c a ih =>
      obtain ⟨hc, ha⟩ := List.forall_mem_cons.1 ha
      rw [List.cons_append, wordsOf_cons_of_blank hc, ih ha]

theorem wordsOf_append_blank (hb : AllBlank b) (cs : List Char) :
    wordsOf (cs ++ b) = wordsOf cs := by
  cases b with
  | nil => rw [List.append_nil]
  | cons d b =>
      obtain ⟨hd, hb⟩ := List.forall_mem_cons.1 hb
      rw [wordsOf_append hd, wordsOf_of_blank hb, List.append_nil]

/-- A word in front, which ends at a blank or at the end. -/
theorem wordsOf_word_append (hw : NoBlank w) (hne : w ≠ [])
    (hcs : ∀ c ∈ cs.head?, isBlank c = true) : wordsOf (w ++ cs) = w :: wordsOf cs := by
  have hword : wordsOf w = [w] := by
    cases w with
    | nil => exact absurd rfl hne
    | cons c w => exact wordsOf_of_no_blank c hw
  cases cs with
  | nil => rw [List.append_nil, hword]; rfl
  | cons d cs => rw [wordsOf_append (hcs d rfl), hword, wordsOf_cons_of_blank (hcs d rfl)]; rfl

/-- A text begins with characters that are not blank, up to a blank or its end. -/
theorem exists_word_end (cs : List Char) :
    ∃ w rest, cs = w ++ rest ∧ NoBlank w ∧ ∀ c ∈ rest.head?, isBlank c = true := by
  induction cs with
  | nil => exact ⟨[], [], rfl, nofun, nofun⟩
  | cons c cs ih =>
      cases hc : isBlank c with
      | true => exact ⟨[], c :: cs, rfl, nofun, by rintro _ ⟨⟩; exact hc⟩
      | false =>
          obtain ⟨w, rest, rfl, hw, hrest⟩ := ih
          exact ⟨c :: w, rest, rfl, List.forall_mem_cons.2 ⟨hc, hw⟩, hrest⟩

/-- The first word goes on from where it begins. -/
theorem head?_wordsOf_append (hw : NoBlank w) (hne : w ≠ []) (cs : List Char) :
    ∃ u, (wordsOf (w ++ cs)).head? = some (w ++ u) := by
  obtain ⟨u, rest, rfl, hu, hrest⟩ := exists_word_end cs
  have hword : NoBlank (w ++ u) := List.forall_mem_append.2 ⟨hw, hu⟩
  refine ⟨u, ?_⟩
  rw [← List.append_assoc, wordsOf_word_append hword (List.append_ne_nil_of_left_ne_nil hne u) hrest,
    List.head?_cons]

/-- Only blanks stand before the first word. -/
theorem exists_of_wordsOf (h : wordsOf cs = w :: ws) :
    ∃ a rest, AllBlank a ∧ cs = a ++ (w ++ rest) ∧ w ≠ [] ∧ NoBlank w ∧
      ∀ c ∈ rest.head?, isBlank c = true := by
  obtain ⟨a, ds, rfl, ha, hhead⟩ := exists_blank_start cs
  obtain ⟨u, rest, rfl, hu, hrest⟩ := exists_word_end ds
  rw [wordsOf_blank_append ha] at h
  cases u with
  | nil =>
      cases rest with
      | nil => cases h
      | cons c rest => exact absurd (hrest c rfl) (Bool.eq_false_iff.1 (hhead c rfl))
  | cons c u =>
      rw [wordsOf_word_append hu (List.cons_ne_nil c u) hrest] at h
      obtain ⟨rfl, -⟩ := List.cons.inj h
      exact ⟨a, rest, ha, rfl, List.cons_ne_nil c u, hu, hrest⟩

theorem wordsOf_trimChars (cs : List Char) : wordsOf (trimChars cs) = wordsOf cs := by
  obtain ⟨a, b, ha, hb, hcs⟩ := eq_trimChars cs
  conv => rhs; rw [hcs]
  rw [wordsOf_append_blank hb, wordsOf_blank_append ha]

end Words

/-! ## What is not blank -/

section NotBlank

variable {b cs : List Char}

/-- The characters that are not blank. -/
def dense (cs : List Char) : List Char := cs.filter fun c => !isBlank c

theorem dense_append (cs ds : List Char) : dense (cs ++ ds) = dense cs ++ dense ds :=
  List.filter_append _ _

theorem dense_eq_nil : dense cs = [] ↔ AllBlank cs := by
  simp only [dense, List.filter_eq_nil_iff, Bool.not_eq_true', Bool.not_eq_false, AllBlank]

theorem dense_trimChars (cs : List Char) : dense (trimChars cs) = dense cs := by
  obtain ⟨a, b, ha, hb, hcs⟩ := eq_trimChars cs
  conv => rhs; rw [hcs]
  rw [dense_append, dense_append, dense_eq_nil.2 ha, dense_eq_nil.2 hb, List.nil_append,
    List.append_nil]

end NotBlank

/-! ## Texts -/

section Texts

variable {a b l l' : String}

theorem noBlank_of_hasBlank (h : hasBlank l = false) : NoBlank l.toList := fun c hc =>
  Bool.eq_false_iff.2 fun hblank => Bool.eq_false_iff.1 h (List.any_eq_true.2 ⟨c, hc, hblank⟩)

theorem words_trim (l : String) : words (trim l) = words l := by
  rw [words, words, trim, String.toList_ofList, wordsOf_trimChars]

theorem words_of_trim (h : trim l = trim l') : words l = words l' := by
  rw [← words_trim l, h, words_trim]

theorem head?_blank_append (ha : AllBlank a.toList) (hne : a ≠ "") (l : String) :
    ∀ c ∈ (a ++ l).toList.head?, isBlank c = true := by
  have hlist : a.toList ≠ [] := fun h => hne (String.toList_inj.1 h)
  rw [String.toList_append, List.head?_append_of_ne_nil _ hlist]
  exact fun c hc => ha c (List.mem_of_mem_head? hc)

theorem words_append_space (s t : String) : words (s ++ " " ++ t) = words s ++ words t := by
  have hlist : (s ++ " " ++ t).toList = s.toList ++ ' ' :: t.toList := by simp
  rw [words, hlist, wordsOf_append (by decide), List.map_append]
  rfl

theorem trim_padded (ha : AllBlank a.toList) (hb : AllBlank b.toList) (l : String) :
    trim (a ++ l ++ b) = trim l := by
  rw [trim, trim, String.toList_append, String.toList_append, trimChars_append_blank hb,
    trimChars_blank_append ha]

end Texts

/-! ## Case -/

/-- Only the small letters change when they are raised. -/
theorem toUpper_eq_self_or (c : Char) :
    c.toUpper = c ∨ ∃ n < 26, c = Char.ofNat (n + 97) := by
  unfold Char.toUpper
  split
  next hlower =>
    right
    have hlow : 97 ≤ c.toNat := UInt32.le_iff_toNat_le.1 hlower.1
    have hhigh : c.toNat ≤ 122 := UInt32.le_iff_toNat_le.1 hlower.2
    refine ⟨c.toNat - 97, by omega, ?_⟩
    rw [Nat.sub_add_cancel hlow, Char.ofNat_toNat]
  next => exact .inl rfl

theorem isBlank_toUpper (c : Char) : isBlank c.toUpper = isBlank c := by
  have hletters : ∀ n < 26, isBlank (Char.ofNat (n + 97)).toUpper = isBlank (Char.ofNat (n + 97)) := by
    decide
  obtain hc | ⟨n, hn, rfl⟩ := toUpper_eq_self_or c
  · rw [hc]
  · exact hletters n hn

theorem utf8Size_toUpper (c : Char) : c.toUpper.utf8Size = c.utf8Size := by
  have hletters : ∀ n < 26,
      (Char.ofNat (n + 97)).toUpper.utf8Size = (Char.ofNat (n + 97)).utf8Size := by
    decide
  obtain hc | ⟨n, hn, rfl⟩ := toUpper_eq_self_or c
  · rw [hc]
  · exact hletters n hn

theorem toUpper_toUpper (c : Char) : c.toUpper.toUpper = c.toUpper := by
  have hletters : ∀ n < 26,
      (Char.ofNat (n + 97)).toUpper.toUpper = (Char.ofNat (n + 97)).toUpper := by
    decide
  obtain hc | ⟨n, hn, rfl⟩ := toUpper_eq_self_or c
  · rw [hc, hc]
  · exact hletters n hn

theorem toList_upper (s : String) : (upper s).toList = s.toList.map Char.toUpper := by
  rw [upper, String.toList_ofList]

theorem sameFold_upper (s t : String) : sameFold s (upper t) = sameFold s t := by
  have hupper : upper (upper t) = upper t := by
    rw [upper, toList_upper, List.map_map]
    exact congrArg String.ofList (List.map_congr_left fun c _ => toUpper_toUpper c)
  rw [sameFold, hupper, sameFold]

theorem dense_map_toUpper (cs : List Char) :
    dense (cs.map Char.toUpper) = (dense cs).map Char.toUpper := by
  rw [dense, dense, List.filter_map]
  refine congrArg (List.map Char.toUpper) (List.filter_congr fun c _ => ?_)
  rw [Function.comp_apply, isBlank_toUpper]

theorem dense_of_upper {s t : String} (h : upper s = upper t) :
    (dense s.toList).map Char.toUpper = (dense t.toList).map Char.toUpper := by
  rw [← dense_map_toUpper, ← toList_upper, h, toList_upper, dense_map_toUpper]

/-- A text without blanks has none however it is spelled. -/
theorem noBlank_of_upper {s t : String} (h : upper s = upper t)
    (ht : NoBlank t.toList) : NoBlank s.toList := by
  intro c hc
  have hmem : c.toUpper ∈ (upper t).toList := by
    rw [← h, toList_upper]
    exact List.mem_map_of_mem hc
  rw [toList_upper] at hmem
  obtain ⟨d, hd, heq⟩ := List.mem_map.1 hmem
  rw [← isBlank_toUpper c, ← heq, isBlank_toUpper d]
  exact ht d hd

end SmtpReceiver.Text
