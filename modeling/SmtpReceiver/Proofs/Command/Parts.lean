import SmtpReceiver.CommandLine
import SmtpReceiver.Proofs.Text.Offsets

/-!
# The parts of a command line

Commands look at a line in three ways.  The verb and the arguments are words, the predicate
is what stands `behind` four bytes, and the address is what stands behind the keyword of the
predicate, without brackets.

The words do not depend on blanks around the line.  The predicate does not depend on blanks at
the end of the line, but four blanks in front of it are as good as a verb.
-/

namespace SmtpReceiver.CommandLine

open Text

variable {l l' v k keyword b : String}

/-! ## Verbs and arguments -/

theorem arguments_of_trim (h : trim l = trim l') : arguments l = arguments l' := words_of_trim h

theorem verb?_of_trim (h : trim l = trim l') : verb? l = verb? l' := by
  rw [verb?, verb?, h]

theorem verb?_eq_some :
    verb? l = some v ↔ 4 ≤ byteLength (trim l) ∧ ∃ w ws, words l = w :: ws ∧ upper w = v := by
  rw [verb?, words_trim]
  split
  next hshort => exact ⟨nofun, fun h => absurd hshort (Nat.not_lt.2 h.1)⟩
  next hlong =>
    cases words l with
    | nil => exact ⟨nofun, fun ⟨_, _, _, hwords, _⟩ => nomatch hwords⟩
    | cons w ws =>
        refine ⟨fun h => ⟨Nat.not_lt.1 hlong, w, ws, rfl, Option.some.inj h⟩, ?_⟩
        rintro ⟨-, _, _, ⟨⟩, rfl⟩
        rfl

/-- A line that begins with a word has it as its verb, if it is long enough. -/
theorem verb?_of_word {w rest : String} (hw : NoBlank w.toList)
    (hlong : 4 ≤ byteLength w) (hrest : ∀ c ∈ rest.toList.head?, isBlank c = true) :
    verb? (w ++ rest) = some (upper w) := by
  have hne : w.toList ≠ [] := by
    intro hnil
    rw [byteLength_eq, hnil] at hlong
    exact absurd hlong (by decide)
  obtain ⟨ds, b, -, -, htrim⟩ := (trimmed_of_noBlank hw).trimChars_append hne rest.toList
  refine verb?_eq_some.2 ⟨?_, w, words rest, ?_, rfl⟩
  · rw [byteLength_eq, trim, String.toList_ofList, String.toList_append, htrim, byteCount_append,
      ← byteLength_eq]
    exact Nat.le_trans hlong (Nat.le_add_right _ _)
  · rw [words, String.toList_append, wordsOf_word_append hw hne hrest, List.map_cons,
      String.ofList_toList]
    rfl

/-! ## Predicates -/

theorem predicate_eq (l : String) : predicate l = String.ofList (behind l.toList 4) :=
  trim_dropBytes? l 4

theorem predicate_append_blank (hb : AllBlank b.toList) (l : String) :
    predicate (l ++ b) = predicate l := by
  rw [predicate_eq, predicate_eq, String.toList_append, behind_append_blank hb]

/-! ## Keywords -/

theorem startsWithKeyword_append (h : upper k = upper keyword) (rest : String) :
    startsWithKeyword (k ++ rest) keyword = true := by
  have hsize : byteLength keyword = byteCount k.toList := by
    rw [byteLength_eq, byteCount_of_upper h]
  rw [startsWithKeyword, takeBytes?, String.toList_append, hsize, splitChars?_append]
  simp only [Option.map_some, String.ofList_toList, sameFold, h, beq_self_eq_true]

theorem exists_of_startsWithKeyword {p : String} (h : startsWithKeyword p keyword = true) :
    ∃ k rest, p = k ++ rest ∧ upper k = upper keyword := by
  rw [startsWithKeyword, takeBytes?] at h
  cases hcut : splitChars? p.toList (byteLength keyword) with
  | none =>
      rw [hcut] at h
      cases h
  | some q =>
      rw [hcut] at h
      refine ⟨String.ofList q.1, String.ofList q.2, ?_, eq_of_beq h⟩
      rw [← String.ofList_append, append_of_splitChars? hcut, String.ofList_toList]

/-! ## Addresses -/

/-- Characters without the brackets around them. -/
def unbracketed : List Char → List Char
  | '<' :: cs => untilBracket cs
  | cs => cs

theorem envelopeAddress_eq (p : String) (n : Nat) :
    envelopeAddress p n = String.ofList (unbracketed (behind p.toList n)) := by
  rw [envelopeAddress, trim_dropBytes?]
  simp only [String.toList_ofList]
  split
  next cs hcs => rw [hcs, unbracketed]
  next hcs =>
    rw [unbracketed]
    exact hcs

end SmtpReceiver.CommandLine
