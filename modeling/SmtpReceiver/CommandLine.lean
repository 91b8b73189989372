import SmtpReceiver.Text.Blank
import SmtpReceiver.Text.Ascii
import SmtpReceiver.Text.Offset

/-!
# Command lines

A command line is a verb and its arguments, separated by blanks.  `verb?` gives
the verb with its letters raised, and refuses a line of fewer than four bytes.
`arguments` gives all words of the line, the verb among them.

The commands with an envelope address do not use words.  Their *predicate* is
what stands after the first four bytes of the line, such as `FROM:<a@b>`.  It
begins with a keyword, and `envelopeAddress` gives the address behind it.
-/

namespace SmtpReceiver.CommandLine

open Text

/-- The wording for a line that holds no verb. -/
def noVerb : String := "Syntax error"

/-- The verb of a line with its letters raised, if the line is long enough to have one. -/
def verb? (line : String) : Option String :=
  let trimmed := trim line
  if byteLength trimmed < 4 then none else (words trimmed).head?.map upper

/-- The words of a line, the verb first. -/
def arguments (line : String) : List String := words line

/-- What stands after the first four bytes of a line, without the blanks around it. -/
def predicate (line : String) : String := ((dropBytes? line 4).map trim).getD ""

/-- The characters up to the closing bracket, or all if there is none. -/
def untilBracket (cs : List Char) : List Char := cs.takeWhile (· != '>')

/-- The address behind a keyword of so many bytes.  Brackets around it are
dropped, and a missing closing bracket is forgiven. -/
def envelopeAddress (predicate : String) (keywordLength : Nat) : String :=
  let rest := ((dropBytes? predicate keywordLength).map trim).getD ""
  match rest.toList with
  | '<' :: cs => String.ofList (untilBracket cs)
  | _ => rest

/-- Whether a predicate begins with a keyword, but for the case of its letters. -/
def startsWithKeyword (predicate keyword : String) : Bool :=
  match takeBytes? predicate (byteLength keyword) with
  | some head => sameFold head keyword
  | none => false

/-! ## Tests -/

example : verb? "  mail FROM:<a@b>" = some "MAIL" := by decide +kernel

example : verb? "hi" = none := by decide +kernel

example : predicate "MAIL FROM:<a@b> " = "FROM:<a@b>" := by decide +kernel

example : envelopeAddress "FROM: <a@b> SIZE=1" 5 = "a@b" := by decide +kernel

example : envelopeAddress "FROM:<a@b" 5 = "a@b" := by decide +kernel

end SmtpReceiver.CommandLine
