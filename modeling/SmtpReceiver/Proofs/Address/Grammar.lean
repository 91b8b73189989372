import SmtpReceiver.Proofs.Command.Envelope
import SmtpReceiver.Proofs.Reply.Breaks

/-!
# The grammar of addresses

An address is *spelled* from atoms and labels.  The atoms are joined by dots, then comes an at
sign, and then come the labels, joined by dots again.  There is at least one of each, and none is
empty.  An atom is made of letters, digits and the symbols of RFC 5322, and a label of letters,
digits and hyphens.

The test for an address accepts what is spelled so, and nothing else.  It cuts at the last at
sign, but no atom and no label has one, so an address has no other.

Its characters are harmless.  So in brackets it is read back whatever stands behind it, and a
reply that quotes it is read as this one reply, even by a client that ends lines at any break
(`isAddress_iff_spelled`).
-/

namespace SmtpReceiver

open CommandLine (envelopeAddress untilBracket)
open Text (Solid byteLength)

/-! ## Atoms and labels -/

/-- A letter or a digit of ASCII. -/
def IsLetterOrDigit (c : Char) : Prop :=
  ('A' ≤ c ∧ c ≤ 'Z') ∨ ('a' ≤ c ∧ c ≤ 'z') ∨ ('0' ≤ c ∧ c ≤ '9')

/-- The symbols that RFC 5322 allows in an atom, in its order. -/
def atextSymbols : String := "!#$%&'*+-/=?^_\x60\x7b|\x7d~"

def IsAtom (a : String) : Prop :=
  a ≠ "" ∧ ∀ c ∈ a.toList, IsLetterOrDigit c ∨ c ∈ atextSymbols.toList

def IsLabel (l : String) : Prop :=
  l ≠ "" ∧ ∀ c ∈ l.toList, IsLetterOrDigit c ∨ c = '-'

instance (c : Char) : Decidable (IsLetterOrDigit c) := inferInstanceAs (Decidable (_ ∨ _))

-- Over the text, and not over all characters, of which there are finitely many.
instance (a : String) : Decidable (IsAtom a) :=
  have := List.decidableBAll (fun c => IsLetterOrDigit c ∨ c ∈ atextSymbols.toList) a.toList
  inferInstanceAs (Decidable (_ ∧ _))

instance (l : String) : Decidable (IsLabel l) :=
  have := List.decidableBAll (fun c => IsLetterOrDigit c ∨ c = '-') l.toList
  inferInstanceAs (Decidable (_ ∧ _))

/-- The text is these atoms, an at sign and these labels. -/
structure Spelled (s : String) (atoms labels : List String) : Prop where
  atoms_ne_nil : atoms ≠ []
  labels_ne_nil : labels ≠ []
  isAtom : ∀ a ∈ atoms, IsAtom a
  isLabel : ∀ l ∈ labels, IsLabel l
  text : s = ".".intercalate atoms ++ "@" ++ ".".intercalate labels

theorem isAlphanum_iff {c : Char} : c.isAlphanum = true ↔ IsLetterOrDigit c := by
  have hupper : c.isUpper = true ↔ 'A' ≤ c ∧ c ≤ 'Z' := decide_eq_true_iff
  have hlower : c.isLower = true ↔ 'a' ≤ c ∧ c ≤ 'z' :=
    Bool.and_eq_true_iff.trans (and_congr decide_eq_true_iff decide_eq_true_iff)
  have hdigit : c.isDigit = true ↔ '0' ≤ c ∧ c ≤ '9' :=
    Bool.and_eq_true_iff.trans (and_congr decide_eq_true_iff decide_eq_true_iff)
  have hletter : c.isAlpha = true ↔ c.isUpper = true ∨ c.isLower = true := Bool.or_eq_true_iff
  have hall : c.isAlphanum = true ↔ c.isAlpha = true ∨ c.isDigit = true := Bool.or_eq_true_iff
  rw [hall, hletter, hupper, hlower, hdigit]
  exact or_assoc

theorem isAtomChar_iff {c : Char} :
    isAtomChar c = true ↔ IsLetterOrDigit c ∨ c ∈ atextSymbols.toList := by
  have hsymbols : atomSymbols.Perm atextSymbols.toList := by decide
  rw [isAtomChar, Bool.or_eq_true, isAlphanum_iff, List.contains_iff_mem, hsymbols.mem_iff]

theorem isLabelChar_iff {c : Char} : isLabelChar c = true ↔ IsLetterOrDigit c ∨ c = '-' := by
  rw [isLabelChar, Bool.or_eq_true, isAlphanum_iff, beq_iff_eq]

theorem isDotted_atoms_iff {cs : List Char} : isDotted isAtomChar cs = true ↔
    ∃ atoms : List String, atoms ≠ [] ∧ (∀ a ∈ atoms, IsAtom a) ∧
      cs = (".".intercalate atoms).toList := by
  simp only [isDotted_iff (show isAtomChar '.' = false by decide), isAtomChar_iff, IsAtom]

theorem isDotted_labels_iff {cs : List Char} : isDotted isLabelChar cs = true ↔
    ∃ labels : List String, labels ≠ [] ∧ (∀ l ∈ labels, IsLabel l) ∧
      cs = (".".intercalate labels).toList := by
  simp only [isDotted_iff (show isLabelChar '.' = false by decide), isLabelChar_iff, IsLabel]

theorem toList_spelling (localPart domain : String) :
    (localPart ++ "@" ++ domain).toList = localPart.toList ++ '@' :: domain.toList := by
  rw [String.toList_append, String.toList_append, List.append_assoc]
  rfl

theorem isAddress_iff_exists_spelled {s : String} :
    isAddress s = true ↔ ∃ atoms labels, Spelled s atoms labels := by
  rw [isAddress_iff]
  constructor
  · rintro ⟨localPart, domain, hs, hlocal, hdomain⟩
    obtain ⟨atoms, hatoms, hisAtom, rfl⟩ := isDotted_atoms_iff.1 hlocal
    obtain ⟨labels, hlabels, hisLabel, rfl⟩ := isDotted_labels_iff.1 hdomain
    refine ⟨atoms, labels, hatoms, hlabels, hisAtom, hisLabel, ?_⟩
    rw [← String.toList_inj, hs, toList_spelling]
  · rintro ⟨atoms, labels, h⟩
    refine ⟨_, _, ?_, isDotted_atoms_iff.2 ⟨atoms, h.atoms_ne_nil, h.isAtom, rfl⟩,
      isDotted_labels_iff.2 ⟨labels, h.labels_ne_nil, h.isLabel, rfl⟩⟩
    rw [h.text, toList_spelling]

/-! ## Quoted addresses -/

/-- An address in brackets is read back, whatever stands behind it. -/
theorem envelopeAddress_bracketed {s : String} (h : isAddress s = true) (keyword rest : String) :
    envelopeAddress (keyword ++ ("<" ++ s ++ ">" ++ rest)) (byteLength keyword) = s := by
  rw [CommandLine.envelopeAddress_eq, Text.byteLength_eq, String.toList_append, Text.behind_append,
    (Written.bracketed rest).unbracketed_trimChars h, String.ofList_toList]

/-- A reply of one line that quotes an address is read as this one reply. -/
theorem readLoosely?_quoting {s : String} (h : isAddress s = true) (code : ReplyCode)
    {before behind : String} (hbefore : Solid before.toList) (hbehind : Solid behind.toList) :
    let r := Reply.line code (before ++ s ++ behind)
    Reply.readLoosely? r.wire = some [r] := by
  have hs : Solid s.toList := Address.solid ⟨s, h⟩
  exact Reply.readLoosely?_wire (List.cons_ne_nil _ _)
    (List.forall_mem_singleton.2 (Text.solid_append (Text.solid_append hbefore hs) hbehind))

/-- An address is atoms, an at sign and labels, and nothing else is one.  So it has one at sign, and
all its characters are harmless.  In brackets it is read back, and a reply that quotes it stays one
reply. -/
theorem isAddress_iff_spelled (s : String) :
    (isAddress s = true ↔ ∃ atoms labels, Spelled s atoms labels) ∧
    (isAddress s = true →
      s.toList.count '@' = 1 ∧ (∀ c ∈ s.toList, Harmless c) ∧
      (∀ keyword rest,
        envelopeAddress (keyword ++ ("<" ++ s ++ ">" ++ rest)) (byteLength keyword) = s) ∧
      ∀ code before behind, Solid before.toList → Solid behind.toList →
        let r := Reply.line code (before ++ s ++ behind)
        Reply.readLoosely? r.wire = some [r]) := by
  refine ⟨isAddress_iff_exists_spelled, fun h => ⟨count_at h, ?_, ?_, ?_⟩⟩
  · exact harmless_of_isAddress h
  · exact envelopeAddress_bracketed h
  · exact fun code before behind => readLoosely?_quoting h code

theorem isAddress_iff_spelled_refused :
    let s := "o'b.c+d@mail-1.LOCALHOST"
    let r := (Delivery.Fanout.unknown s).reply
    isAddress s = true ∧ envelopeAddress ("TO:<" ++ s ++ "> NOTIFY=NEVER") 3 = s ∧
      Reply.readLoosely? r.wire = some [r] := by
  intro s r
  have hspelled : Spelled s ["o'b", "c+d"] ["mail-1", "LOCALHOST"] :=
    ⟨by decide, by decide, by decide, by decide, by decide⟩
  obtain ⟨hiff, hquoted⟩ := isAddress_iff_spelled s
  have hs : isAddress s = true := hiff.2 ⟨_, _, hspelled⟩
  obtain ⟨-, -, hbracketed, hreply⟩ := hquoted hs
  exact ⟨hs, hbracketed "TO:" " NOTIFY=NEVER",
    hreply .badAddress "<" "> address unknown." (by decide) (by decide)⟩

end SmtpReceiver
