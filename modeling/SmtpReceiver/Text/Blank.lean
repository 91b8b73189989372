/-!
# Blank characters

A command line is cut into words at blanks, and blanks around a line or an
argument do not count.  A character is *blank* if Unicode gives it the property
White_Space, so the no-break space and the line separators are blank too.

`trim` drops the blanks at both ends.  `words` gives the longest runs without a
blank, in order.  Both are defined on lists of characters first, and every
recursion is structural.
-/

namespace SmtpReceiver.Text

/-! ## The property -/

/-- The characters with the property White_Space, as closed ranges of code points. -/
def blankRanges : List (Nat × Nat) :=
  [(0x09, 0x0D), (0x20, 0x20), (0x85, 0x85), (0xA0, 0xA0), (0x1680, 0x1680), (0x2000, 0x200A),
    (0x2028, 0x2029), (0x202F, 0x202F), (0x205F, 0x205F), (0x3000, 0x3000)]

/-- Whether a character is blank. -/
def isBlank (c : Char) : Bool :=
  blankRanges.any fun r => r.1 ≤ c.toNat && c.toNat ≤ r.2

/-- Every character that is whitespace by the core library's test is blank. -/
theorem isBlank_of_isWhitespace {c : Char} (h : c.isWhitespace = true) : isBlank c = true := by
  simp only [Char.isWhitespace, Bool.or_eq_true, decide_eq_true_eq] at h
  rcases h with ((h | h) | h) | h <;> subst h <;> decide

/-! ## Trimming -/

/-- The characters without the blanks at both ends. -/
def trimChars (cs : List Char) : List Char :=
  ((cs.dropWhile isBlank).reverse.dropWhile isBlank).reverse

/-- The text without the blanks at both ends. -/
def trim (s : String) : String := String.ofList (trimChars s.toList)

/-! ## Words -/

/-- The longest runs without a blank, in order. -/
def wordsOf : List Char → List (List Char)
  | [] => []
  | c :: cs =>
    if isBlank c then wordsOf cs
    else match cs with
      | [] => [[c]]
      | d :: _ => if isBlank d then [c] :: wordsOf cs else (wordsOf cs).modifyHead (c :: ·)

/-- The words of a text, in order. -/
def words (s : String) : List String := (wordsOf s.toList).map String.ofList

/-- Whether a text holds a blank. -/
def hasBlank (s : String) : Bool := s.toList.any isBlank

/-! ## Tests -/

example : trim " \t a b \u00a0" = "a b" := by decide +kernel

example : words " mail  from:<a@b>\u2003x " = ["mail", "from:<a@b>", "x"] := by decide +kernel

end SmtpReceiver.Text
