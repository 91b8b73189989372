import Mathlib.Data.Set.Function
import SmtpReceiver.Proofs.Text.Unbroken
import SmtpReceiver.Reply

/-!
# Reading replies

A client cuts what it receives at each CRLF.  A line begins with the digits of the
code.  A hyphen behind them says that the reply goes on in the next line, and a space
or the end of the line that it ends here.  What stands behind this mark is text
(`markedLine?`).  The text may begin with anything, also with digits or marks, since
the first character that is no digit is the mark.

A reply is *readable* if it has lines and no CRLF stands in one of them.  Readable
replies come back from what is written, however many there are (`read_flatMap_wire`).
So no reply is written as another one, and no two sequences of replies are written
alike.
-/

namespace SmtpReceiver

open Framing (IsLine crlf join splitLines)
open Text (Bytes Unbroken decode encode encode_append)

/-! ## The reader -/

/-- A line of a reply as a client reads it. -/
structure MarkedLine where
  code : ReplyCode
  text : String
  /-- The reply goes on in the next line. -/
  goesOn : Bool
deriving DecidableEq, Repr

/-- The line of a code with this behind it, if that begins with a mark. -/
def MarkedLine.ofMark? (code : ReplyCode) : List Char → Option MarkedLine
  | [] => some ⟨code, "", false⟩
  | ' ' :: text => some ⟨code, String.ofList text, false⟩
  | '-' :: text => some ⟨code, String.ofList text, true⟩
  | _ => none

/-- The code, the mark and the text of a line, if there is a code and a mark. -/
def markedLine? (line : String) : Option MarkedLine :=
  let digits := line.toList.takeWhile Char.isDigit
  if digits = [] then none
  else MarkedLine.ofMark? (Nat.ofDigitChars 10 digits 0) (line.toList.dropWhile Char.isDigit)

namespace Reply

/-- The replies that lines belong to.  All lines of a reply have the same code, and the last one
must be there. -/
def ofLines? : List String → Option (List Reply)
  | [] => some []
  | line :: lines =>
    match markedLine? line, ofLines? lines with
    | some ⟨code, text, false⟩, some rs => some (⟨code, [text]⟩ :: rs)
    | some ⟨code, text, true⟩, some (r :: rs) =>
      if r.code = code then some (⟨code, text :: r.lines⟩ :: rs) else none
    | _, _ => none

/-- The replies in the bytes that a client receives, if they hold whole replies. -/
def read? (bs : Bytes) : Option (List Reply) :=
  let (lines, rest) := splitLines bs
  if rest = [] then ofLines? (lines.map decode) else none

/-- There are lines, and no CRLF stands in one of them. -/
structure Readable (r : Reply) : Prop where
  lines : r.lines ≠ []
  unbroken : ∀ l ∈ r.lines, Unbroken l.toList

/-! ## One line -/

section MarkedLine

variable {code : ReplyCode}

theorem isDigit_codeText (code : ReplyCode) : ∀ c ∈ (codeText code).toList, c.isDigit = true := by
  intro c hc
  have hmem : c ∈ Nat.toDigits 10 code := by rwa [← Nat.toList_repr]
  exact Nat.isDigit_of_mem_toDigits (by decide) (by decide) hmem

theorem solid_codeText (code : ReplyCode) : Text.Solid (codeText code).toList :=
  Text.solid_of_forall (by decide) (by decide) (isDigit_codeText code)

theorem ofDigitChars_codeText : Nat.ofDigitChars 10 (codeText code).toList 0 = code := by
  show Nat.ofDigitChars 10 (Nat.repr code).toList 0 = code
  rw [Nat.toList_repr]
  exact Nat.ofDigitChars_toDigits (by decide) (by decide)

theorem codeText_ne_nil : (codeText code).toList ≠ [] := by
  show (Nat.repr code).toList ≠ []
  rw [Nat.toList_repr]
  exact Nat.toDigits_ne_nil

/-- The digits of a code end where something else begins. -/
theorem markedLine?_codeText {line : String} {rest : List Char}
    (hline : line.toList = (codeText code).toList ++ rest)
    (hrest : ∀ c ∈ rest.head?, c.isDigit = false) :
    markedLine? line = MarkedLine.ofMark? code rest := by
  have hdigits := isDigit_codeText code
  have htake : rest.takeWhile Char.isDigit = [] ∧ rest.dropWhile Char.isDigit = rest := by
    cases rest with
    | nil => simp
    | cons c rest =>
        have hc : ¬ c.isDigit = true := by simp [hrest c rfl]
        simp [List.takeWhile_cons_of_neg hc, List.dropWhile_cons_of_neg hc]
  rw [markedLine?, hline, List.takeWhile_append_of_pos hdigits, htake.1, List.append_nil,
    List.dropWhile_append_of_pos hdigits, htake.2, ofDigitChars_codeText]
  exact if_neg codeText_ne_nil

theorem markedLine?_last (text : String) :
    markedLine? (if text = "" then codeText code else codeText code ++ " " ++ text)
      = some ⟨code, text, false⟩ := by
  split
  next hempty =>
    rw [markedLine?_codeText (List.append_nil _).symm (by simp), hempty]
    rfl
  next =>
    have hline : (codeText code ++ " " ++ text).toList
        = (codeText code).toList ++ ' ' :: text.toList := by simp
    rw [markedLine?_codeText hline (by simp), MarkedLine.ofMark?, String.ofList_toList]

theorem markedLine?_goesOn (text : String) :
    markedLine? (codeText code ++ "-" ++ text) = some ⟨code, text, true⟩ := by
  have hline : (codeText code ++ "-" ++ text).toList
      = (codeText code).toList ++ '-' :: text.toList := by simp
  rw [markedLine?_codeText hline (by simp), MarkedLine.ofMark?, String.ofList_toList]

example : markedLine? "250-5 -a" = some ⟨250, "5 -a", true⟩ := by decide +kernel

end MarkedLine

/-! ## One reply -/

/-- The lines of a reply are read as this reply, whatever the texts are. -/
theorem ofLines?_marked (code : ReplyCode) (rest : List String) :
    ∀ {lines : List String}, lines ≠ [] →
      ofLines? (marked code lines ++ rest) = (ofLines? rest).map (⟨code, lines⟩ :: ·)
  | [], h => absurd rfl h
  | [last], _ => by
      simp only [marked, List.singleton_append, ofLines?, markedLine?_last]
      cases ofLines? rest with
      | none => rfl
      | some rs => rfl
  | l :: next :: lines, _ => by
      have ih := ofLines?_marked code rest (List.cons_ne_nil next lines)
      simp only [marked, List.cons_append, ofLines?, markedLine?_goesOn, ih]
      cases ofLines? rest with
      | none => rfl
      | some rs => simp

theorem ofLines?_flatMap_marked {rs : List Reply} (h : ∀ r ∈ rs, r.lines ≠ []) :
    ofLines? (rs.flatMap fun r => marked r.code r.lines) = some rs := by
  induction rs with
  | nil => rfl
  | cons r rs ih =>
      obtain ⟨hr, hrs⟩ := List.forall_mem_cons.1 h
      rw [List.flatMap_cons, ofLines?_marked r.code _ hr, ih hrs]
      rfl

theorem marked_ne_nil (code : ReplyCode) (lines : List String) : marked code lines ≠ [] := by
  unfold marked
  split
  all_goals exact List.cons_ne_nil _ _

theorem encode_crlf : encode "\r\n" = crlf := by decide

theorem encode_intercalate (l : String) (ls : List String) :
    encode (String.intercalate "\r\n" (l :: ls)) ++ crlf = join ((l :: ls).map encode) := by
  induction ls generalizing l with
  | nil => simp [String.intercalate_singleton, join]
  | cons next ls ih =>
      rw [String.intercalate_cons_cons, encode_append, encode_append, encode_crlf,
        List.append_assoc, ih next, List.map_cons, List.map_cons, List.map_cons,
        Framing.join_cons (encode l)]

/-- A reply is written line by line. -/
theorem wire_eq_join (r : Reply) : r.wire = join ((marked r.code r.lines).map encode) := by
  rw [wire, text, encode_append, encode_crlf]
  cases hmarked : marked r.code r.lines with
  | nil => exact absurd hmarked (marked_ne_nil _ _)
  | cons l ls => exact encode_intercalate l ls

/-- A line that is written is the code alone, or the code, a mark and a line of text. -/
theorem of_mem_marked {code : ReplyCode} {written : String} : ∀ {lines : List String},
    written ∈ marked code lines → written = codeText code ∨
      ∃ mark, Text.Solid mark.toList ∧ ∃ l ∈ lines, written = codeText code ++ mark ++ l
  | [], h => .inl (List.mem_singleton.1 h)
  | [last], h => by
      obtain rfl := List.mem_singleton.1 h
      split
      next => exact .inl rfl
      next => exact .inr ⟨" ", by decide, last, List.mem_singleton_self _, rfl⟩
  | l :: next :: lines, h => by
      obtain rfl | h := List.mem_cons.1 h
      · exact .inr ⟨"-", by decide, l, List.mem_cons_self, rfl⟩
      · obtain hcode | ⟨mark, hmark, l', hl', hwritten⟩ := of_mem_marked h
        · exact .inl hcode
        · exact .inr ⟨mark, hmark, l', List.mem_cons_of_mem l hl', hwritten⟩

theorem unbroken_of_mem_marked {code : ReplyCode} {lines : List String}
    (h : ∀ l ∈ lines, Unbroken l.toList) : ∀ l ∈ marked code lines, Unbroken l.toList := by
  intro written hwritten
  obtain rfl | ⟨mark, hmark, l, hl, rfl⟩ := of_mem_marked hwritten
  · exact (solid_codeText code).unbroken
  · rw [String.toList_append]
    exact (h l hl).after_solid (Text.solid_append (solid_codeText code) hmark)

/-! ## All replies -/

/-- What is written of readable replies is read as these replies. -/
theorem read_flatMap_wire {rs : List Reply} (h : ∀ r ∈ rs, r.Readable) :
    read? (rs.flatMap wire) = some rs := by
  have hjoin : rs.flatMap wire = join ((rs.flatMap fun r => marked r.code r.lines).map encode) := by
    induction rs with
    | nil => rfl
    | cons r rs ih =>
        rw [List.flatMap_cons, List.flatMap_cons, List.map_append, Framing.join_append,
          wire_eq_join, ih (List.forall_mem_cons.1 h).2]
  have hlines : ∀ l ∈ (rs.flatMap fun r => marked r.code r.lines).map encode, IsLine l := by
    intro l hl
    obtain ⟨s, hs, rfl⟩ := List.mem_map.1 hl
    obtain ⟨r, hr, hmem⟩ := List.mem_flatMap.1 hs
    exact Text.isLine_encode (unbroken_of_mem_marked (h r hr).unbroken s hmem)
  have hsplit := Framing.splitLines_join hlines []
  rw [List.append_nil, ← hjoin, Framing.splitLines_of_isLine Framing.isLine_nil] at hsplit
  have hdecode : decode ∘ encode = id := funext Text.decode_encode
  simp only [read?, hsplit, if_pos, List.append_nil, List.map_map, hdecode, List.map_id]
  exact ofLines?_flatMap_marked fun r hr => (h r hr).lines

theorem read?_wire {r : Reply} (h : r.Readable) : read? r.wire = some [r] := by
  rw [← List.flatMap_singleton wire r]
  exact read_flatMap_wire (List.forall_mem_singleton.2 h)

/-- No two sequences of readable replies are written alike. -/
theorem flatMap_wire_injOn : Set.InjOn (List.flatMap wire) { rs | ∀ r ∈ rs, r.Readable } := by
  intro rs hrs rs' hrs' h
  have hread := read_flatMap_wire hrs
  rw [h, read_flatMap_wire hrs'] at hread
  exact (Option.some.inj hread).symm

/-- No two readable replies are written alike. -/
theorem wire_injOn : Set.InjOn wire { r | r.Readable } := by
  intro r hr r' hr' h
  have hlists : [r].flatMap wire = [r'].flatMap wire := by simpa using h
  exact List.singleton_inj.1 (flatMap_wire_injOn (List.forall_mem_singleton.2 hr)
    (List.forall_mem_singleton.2 hr') hlists)

end Reply

end SmtpReceiver
