/-!
# Cutting a text at a byte offset

Offsets into a command line count the bytes of its UTF-8 form.  An offset is
usable if it lies inside the text, or at its end, and does not fall into the
middle of a character.  `splitAt?` cuts there, and gives nothing at any other
offset.  The length of a line is counted in the same bytes.
-/

namespace SmtpReceiver.Text

/-- The characters before and after a byte offset, if the offset is usable. -/
def splitChars? : List Char → Nat → Option (List Char × List Char)
  | cs, 0 => some ([], cs)
  | [], _ + 1 => none
  | c :: cs, n + 1 =>
    if c.utf8Size ≤ n + 1 then
      (splitChars? cs (n + 1 - c.utf8Size)).map fun p => (c :: p.1, p.2)
    else none

/-- The two parts a cut makes are the text. -/
theorem append_of_splitChars? {cs a b : List Char} {n : Nat} (h : splitChars? cs n = some (a, b)) :
    a ++ b = cs := by
  induction cs generalizing n a with
  | nil => cases n <;> simp_all [splitChars?]
  | cons c cs ih =>
    cases n with
    | zero => simp_all [splitChars?]
    | succ n =>
      simp only [splitChars?] at h
      split at h
      · obtain ⟨⟨a', b'⟩, h', he⟩ := Option.map_eq_some_iff.1 h
        obtain ⟨rfl, rfl⟩ := Prod.mk.inj he
        simp [ih h']
      · simp at h

/-- The text from a byte offset on, if the offset is usable. -/
def dropBytes? (s : String) (n : Nat) : Option String :=
  (splitChars? s.toList n).map fun p => String.ofList p.2

/-- The text before a byte offset, if the offset is usable. -/
def takeBytes? (s : String) (n : Nat) : Option String :=
  (splitChars? s.toList n).map fun p => String.ofList p.1

/-- The number of bytes of a text. -/
def byteLength (s : String) : Nat := s.toList.foldl (fun n c => n + c.utf8Size) 0

/-! ## Tests -/

example : dropBytes? "été" 2 = some "té" := by decide +kernel

example : dropBytes? "été" 1 = none := by decide +kernel

example : dropBytes? "été" 5 = some "" := by decide +kernel

example : dropBytes? "été" 6 = none := by decide +kernel

end SmtpReceiver.Text
