/-!
# Case of ASCII letters

Verbs, keywords and mechanism names are compared without regard to the case of
ASCII letters.  `upper` raises `a` to `z` and keeps every other character, and
`sameFold` says that two texts agree after that.
-/

namespace SmtpReceiver.Text

/-- The text with the letters `a` to `z` raised.  No other character changes. -/
def upper (s : String) : String := String.ofList (s.toList.map Char.toUpper)

/-- Whether two texts agree but for the case of ASCII letters. -/
def sameFold (s t : String) : Bool := upper s == upper t

theorem sameFold_refl (s : String) : sameFold s s = true := by simp [sameFold]

theorem sameFold_comm (s t : String) : sameFold s t = sameFold t s := by
  simp only [sameFold, Bool.beq_comm]

end SmtpReceiver.Text
