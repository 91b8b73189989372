import SmtpReceiver.Framing.Delimiter

/-!
# Lines and blocks of bytes

Bytes are cut at each CRLF, from the left.  The pieces before the cuts are
*lines*, and what follows the last cut is the *remainder*.  A line may hold a
CR or an LF, but not one right after the other (`IsLine`).

A *block* is the lines before the first one that is a lone dot.  It stands for a
message: each line loses the dot it begins with, if it begins with one, and gets
its CRLF back (`Block.content`).  `stuff` is what a sender does to a line so that
it comes out again.

Nothing here refers to the decoder.  These are the notions that its framing is
compared with.
-/

namespace SmtpReceiver.Framing

open Text (Bytes)

/-! ## Lines -/

/-- No CRLF stands in the bytes. -/
def IsLine (bs : Bytes) : Prop := ¬ crlf <:+: bs

/-- The bytes before the first CRLF and those behind it. -/
def cut? : Bytes → Option (Bytes × Bytes)
  | [] => none
  | b :: bs =>
    if b = cr ∧ bs.head? = some lf then some ([], bs.tail)
    else (cut? bs).map fun p => (b :: p.1, p.2)

/-- Lines with their CRLFs, one after the other. -/
def join (ls : List Bytes) : Bytes := ls.flatMap (· ++ crlf)

theorem join_nil : join [] = [] := rfl

theorem join_cons (l : Bytes) (ls : List Bytes) : join (l :: ls) = l ++ crlf ++ join ls := rfl

theorem join_append (ls ls' : List Bytes) : join (ls ++ ls') = join ls ++ join ls' :=
  List.flatMap_append

theorem isLine_nil : IsLine [] := by simp [IsLine, crlf]

theorem isLine_cons {b : UInt8} {bs : Bytes} :
    IsLine (b :: bs) ↔ ¬ (b = cr ∧ bs.head? = some lf) ∧ IsLine bs := by
  cases bs with
  | nil => simp [IsLine, crlf, List.infix_cons_iff, cr, lf]
  | cons c bs =>
      simp only [IsLine, crlf, List.infix_cons_iff, List.cons_prefix_cons, List.nil_prefix,
        List.head?_cons, Option.some.injEq, and_true]
      grind

/-- A byte added to a line breaks it only if it is an LF after a CR. -/
theorem isLine_concat {bs : Bytes} {b : UInt8} :
    IsLine (bs ++ [b]) ↔ IsLine bs ∧ ¬ (bs.getLast? = some cr ∧ b = lf) := by
  induction bs with
  | nil => simp [isLine_cons, isLine_nil]
  | cons c bs ih =>
      rw [List.cons_append, isLine_cons, ih, isLine_cons]
      cases bs with
      | nil => simp [isLine_nil]
      | cons d bs => simp [and_assoc]

theorem isLine_concat_cr {l : Bytes} (h : IsLine l) : IsLine (l ++ [cr]) :=
  isLine_concat.2 ⟨h, by simp [cr, lf]⟩

/-- CRs at the end of a line are part of it. -/
theorem isLine_append_crs {l : Bytes} (h : IsLine l) :
    ∀ n, IsLine (l ++ List.replicate n cr)
  | 0 => by simpa using h
  | n + 1 => by
      rw [List.replicate_succ', ← List.append_assoc]
      exact isLine_concat_cr (isLine_append_crs h n)

theorem isLine_dot : IsLine [dot] := isLine_cons.2 ⟨by simp, isLine_nil⟩

theorem isLine_dot_cr : IsLine [dot, cr] := isLine_concat_cr isLine_dot

theorem cut?_append {l rest : Bytes} (h : IsLine l) :
    cut? (l ++ crlf ++ rest) = some (l, rest) := by
  induction l with
  | nil => simp [cut?, crlf]
  | cons b l ih =>
      obtain ⟨hb, hl⟩ := isLine_cons.1 h
      have hne : ¬ (b = cr ∧ (l ++ crlf ++ rest).head? = some lf) := by
        cases l with
        | nil => simp [crlf, cr, lf]
        | cons c l => simpa using hb
      rw [List.cons_append, List.cons_append, cut?, if_neg hne, ih hl]
      rfl

theorem eq_of_cut? {bs l rest : Bytes} (h : cut? bs = some (l, rest)) :
    IsLine l ∧ bs = l ++ crlf ++ rest := by
  induction bs generalizing l with
  | nil => simp [cut?] at h
  | cons b bs ih =>
      rw [cut?] at h
      split at h
      next hb =>
        obtain ⟨rfl, rfl⟩ := Prod.mk.inj (Option.some.inj h)
        obtain ⟨rfl, hlf⟩ := hb
        obtain ⟨bs', rfl⟩ := List.head?_eq_some_iff.1 hlf
        exact ⟨isLine_nil, rfl⟩
      next hb =>
        obtain ⟨⟨l', rest'⟩, hcut, heq⟩ := Option.map_eq_some_iff.1 h
        obtain ⟨rfl, rfl⟩ := Prod.mk.inj heq
        obtain ⟨hl, rfl⟩ := ih hcut
        refine ⟨isLine_cons.2 ⟨fun hc => hb ?_, hl⟩, rfl⟩
        refine ⟨hc.1, ?_⟩
        cases l' with
        | nil => simp at hc
        | cons c l' => simpa using hc.2

theorem cut?_eq_none {bs : Bytes} : cut? bs = none ↔ IsLine bs := by
  induction bs with
  | nil => simp [cut?, isLine_nil]
  | cons b bs ih =>
      rw [cut?, isLine_cons]
      split
      next hb => simp [hb]
      next hb => simp [hb, ih]

/-! ## Cutting all lines -/

/-- The lines of the bytes, and the remainder. -/
def splitLines (bs : Bytes) : List Bytes × Bytes :=
  match _h : cut? bs with
  | none => ([], bs)
  | some (l, rest) => (l :: (splitLines rest).1, (splitLines rest).2)
termination_by bs.length
decreasing_by
  all_goals
    obtain ⟨-, rfl⟩ := eq_of_cut? _h
    simp [crlf]
    omega

theorem splitLines_of_isLine {bs : Bytes} (h : IsLine bs) : splitLines bs = ([], bs) := by
  rw [splitLines]
  split
  next => rfl
  next hc => rw [cut?_eq_none.2 h] at hc; cases hc

theorem splitLines_append {l rest : Bytes} (h : IsLine l) :
    splitLines (l ++ crlf ++ rest) = (l :: (splitLines rest).1, (splitLines rest).2) := by
  rw [splitLines]
  split
  next hc => rw [cut?_append h] at hc; cases hc
  next l' rest' hc =>
    rw [cut?_append h] at hc
    obtain ⟨rfl, rfl⟩ := Prod.mk.inj (Option.some.inj hc)
    rfl

/-- Nothing is lost by cutting, and what is cut out are lines. -/
theorem join_splitLines (bs : Bytes) :
    bs = join (splitLines bs).1 ++ (splitLines bs).2 ∧
      (∀ l ∈ (splitLines bs).1, IsLine l) ∧ IsLine (splitLines bs).2 := by
  induction hn : bs.length using Nat.strongRecOn generalizing bs with
  | _ n ih =>
      cases hc : cut? bs with
      | none =>
          have hl := cut?_eq_none.1 hc
          simp [splitLines_of_isLine hl, join_nil, hl]
      | some p =>
          obtain ⟨l, rest⟩ := p
          obtain ⟨hl, rfl⟩ := eq_of_cut? hc
          obtain ⟨hrest, hls, htail⟩ := ih rest.length (by simp [← hn, crlf]; omega) rest rfl
          rw [splitLines_append hl]
          refine ⟨?_, ?_, htail⟩
          · simp only [join_cons, List.append_assoc]
            rw [← hrest]
          · intro l' hl'
            cases List.mem_cons.1 hl' with
            | inl he => exact he ▸ hl
            | inr hm => exact hls l' hm

/-- Cutting is the only way to read bytes as lines and a remainder. -/
theorem splitLines_join {ls : List Bytes} (hls : ∀ l ∈ ls, IsLine l) (rest : Bytes) :
    splitLines (join ls ++ rest) = (ls ++ (splitLines rest).1, (splitLines rest).2) := by
  induction ls with
  | nil => rfl
  | cons l ls ih =>
      have hl := hls l (List.mem_cons_self ..)
      have ih' := ih fun l' hl' => hls l' (List.mem_cons_of_mem _ hl')
      rw [join_cons, List.append_assoc, splitLines_append hl, ih']
      rfl

/-! ## Transparency -/

/-- A line without the dot it begins with, if it begins with one. -/
def unstuff (l : Bytes) : Bytes := if l.head? = some dot then l.tail else l

/-- A line with one more dot, if it begins with one. -/
def stuff (l : Bytes) : Bytes := if l.head? = some dot then dot :: l else l

theorem unstuff_stuff (l : Bytes) : unstuff (stuff l) = l := by
  unfold stuff
  split
  next h => rfl
  next h => simp [unstuff, h]

theorem stuff_ne_dot (l : Bytes) : stuff l ≠ [dot] := by
  unfold stuff
  split
  next h => cases l <;> simp_all
  next h => rintro rfl; simp at h

theorem isLine_stuff {l : Bytes} (h : IsLine l) : IsLine (stuff l) := by
  unfold stuff
  split
  next => exact isLine_cons.2 ⟨by simp [dot, cr], h⟩
  next => exact h

/-- Only the first byte of a line decides whether a dot is dropped. -/
theorem unstuff_concat {l : Bytes} {b : UInt8} (h : l ≠ [] ∨ b ≠ dot) :
    unstuff (l ++ [b]) = unstuff l ++ [b] := by
  cases l with
  | nil => simp_all [unstuff]
  | cons c l =>
      by_cases hc : c = dot <;> simp [unstuff, hc]

/-! ## Blocks -/

/-- The lines before the first one that is a lone dot, and the bytes behind that line. -/
def block? (bs : Bytes) : Option (List Bytes × Bytes) :=
  let ls := (splitLines bs).1
  if [dot] ∈ ls then
    some (ls.takeWhile (· ≠ [dot]),
      join (ls.dropWhile (· ≠ [dot])).tail ++ (splitLines bs).2)
  else none

/-- The message that the lines of a block stand for. -/
def Block.content (ls : List Bytes) : Bytes := join (ls.map unstuff)

/-- Lines are taken up to a lone dot. -/
theorem takeWhile_lines {ls : List Bytes} (ls' : List Bytes) (h : [dot] ∉ ls) :
    (ls ++ [dot] :: ls').takeWhile (· ≠ [dot]) = ls ∧
      (ls ++ [dot] :: ls').dropWhile (· ≠ [dot]) = [dot] :: ls' := by
  have hls : ∀ l ∈ ls, decide (l ≠ [dot]) = true := by
    intro l hl
    simpa using fun he : l = [dot] => h (he ▸ hl)
  rw [List.takeWhile_append_of_pos hls, List.dropWhile_append_of_pos hls]
  simp

theorem block?_join {ls : List Bytes} (h : ∀ l ∈ ls, IsLine l ∧ l ≠ [dot]) (rest : Bytes) :
    block? (join ls ++ ([dot] ++ crlf ++ rest)) = some (ls, rest) := by
  have hsplit : splitLines (join ls ++ ([dot] ++ crlf ++ rest))
      = (ls ++ [dot] :: (splitLines rest).1, (splitLines rest).2) := by
    rw [splitLines_join (fun l hl => (h l hl).1), splitLines_append isLine_dot]
  have htake := takeWhile_lines (splitLines rest).1 fun hm => (h [dot] hm).2 rfl
  simp only [block?, hsplit]
  rw [if_pos (by simp), htake.1, htake.2, List.tail_cons, ← (join_splitLines rest).1]

/-- The bytes of a block begin with its lines, and the line that is a lone dot comes next. -/
theorem eq_of_block? {bs : Bytes} {ls : List Bytes} {rest : Bytes}
    (h : block? bs = some (ls, rest)) :
    (∀ l ∈ ls, IsLine l ∧ l ≠ [dot]) ∧ bs = join ls ++ ([dot] ++ crlf ++ rest) := by
  obtain ⟨hbs, hlines, -⟩ := join_splitLines bs
  by_cases hdot : [dot] ∈ (splitLines bs).1
  · obtain ⟨ws, ls', hsplit, hws⟩ := List.eq_append_cons_of_mem hdot
    have htake := takeWhile_lines ls' hws
    simp only [block?, hsplit] at h
    rw [if_pos (by simp), htake.1, htake.2] at h
    obtain ⟨rfl, rfl⟩ := Prod.mk.inj (Option.some.inj h)
    refine ⟨fun l hl => ⟨hlines l (hsplit ▸ List.mem_append_left _ hl), ?_⟩, ?_⟩
    · exact fun he => hws (he ▸ hl)
    · rw [hsplit, join_append, join_cons] at hbs
      simpa using hbs
  · simp only [block?, if_neg hdot] at h
    cases h

theorem splitLines_append_line (bs rest : Bytes) :
    ∃ ls, splitLines (bs ++ crlf ++ rest) = (ls ++ (splitLines rest).1, (splitLines rest).2) := by
  obtain ⟨hbs, hlines, htail⟩ := join_splitLines bs
  have heq : bs ++ crlf ++ rest
      = join (splitLines bs).1 ++ ((splitLines bs).2 ++ crlf ++ rest) := by
    simpa using congrArg (· ++ crlf ++ rest) hbs
  rw [heq, splitLines_join hlines, splitLines_append htail]
  exact ⟨(splitLines bs).1 ++ [(splitLines bs).2], by simp⟩

/-- A CRLF comes before every line of a block, be it the one before the block. -/
theorem crlf_join (ls : List Bytes) : ∃ before, crlf ++ join ls = before ++ crlf := by
  cases List.eq_nil_or_concat ls with
  | inl h => exact ⟨[], by simp [h, join_nil]⟩
  | inr h =>
      obtain ⟨ls', l, rfl⟩ := h
      exact ⟨crlf ++ join ls' ++ l, by simp [join_append, join_cons, join_nil]⟩

/-- Bytes hold a block if and only if there is a CRLF, a dot and a CRLF in them, where a CRLF
may have come before them. -/
theorem block?_isSome {bs : Bytes} :
    (block? bs).isSome ↔ crlf ++ [dot] ++ crlf <:+: crlf ++ bs := by
  have hsome : (block? bs).isSome ↔ [dot] ∈ (splitLines bs).1 := by
    by_cases hdot : [dot] ∈ (splitLines bs).1 <;> simp [block?, hdot]
  constructor
  · intro h
    obtain ⟨⟨ls, rest⟩, hblock⟩ := Option.isSome_iff_exists.1 h
    obtain ⟨-, rfl⟩ := eq_of_block? hblock
    obtain ⟨before, hbefore⟩ := crlf_join ls
    refine ⟨before, rest, ?_⟩
    rw [← List.append_assoc crlf, hbefore]
    simp
  · rintro ⟨before, rest, h⟩
    rw [hsome]
    rcases before with _ | ⟨a, _ | ⟨b, before⟩⟩
    · have hbs : bs = [dot] ++ crlf ++ rest := by simpa [crlf] using h.symm
      rw [hbs, splitLines_append isLine_dot]
      exact List.mem_cons_self ..
    · have hcr : cr = lf := by simp [crlf] at h; exact h.2.1
      cases hcr
    · have hbs : bs = before ++ crlf ++ ([dot] ++ crlf ++ rest) := by
        simp [crlf] at h
        simp [crlf, h.2.2]
      obtain ⟨ls, hls⟩ := splitLines_append_line before ([dot] ++ crlf ++ rest)
      rw [hbs, hls, splitLines_append isLine_dot]
      simp

end SmtpReceiver.Framing
