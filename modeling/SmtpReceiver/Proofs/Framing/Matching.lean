import Mathlib.Data.List.Induction
import SmtpReceiver.Proofs.Framing.Lines

/-!
# Matching over a line

`settle` looks at one byte and knows nothing of the line it stands in.  Three
cases say what it does.  The byte continues the match, or it is a CR that begins
a new one, or it ends the match (`settle_matched`, `settle_broken_cr`,
`settle_broken_of_ne`).

No byte is lost.  What is released and what is *pending* in the match are
together what was pending before, and the byte (`settle_conserves`).  Only the
dot at the start of a line of a message is never pending.

So after the bytes of a line that has not ended, the match is a function of
these bytes alone, `openMatch`, and the line is released up to what is pending
(`settleAll_open`).  `settleAll_lines` says the same of a message in the middle
of a line.
-/

namespace SmtpReceiver.Framing

open Text (Bytes)

/-! ## Runs -/

namespace Settled

theorem after_after (xs ys : Bytes) (s : Settled) : (s.after ys).after xs = s.after (xs ++ ys) := by
  simp [Settled.after]

end Settled

theorem settleAll_append (step : Nat → UInt8 → Settled) (ys : Bytes) :
    ∀ (xs : Bytes) (matched : Nat), (settleAll step matched xs).complete = false →
      settleAll step matched (xs ++ ys)
        = (settleAll step (settleAll step matched xs).matched ys).after
            (settleAll step matched xs).released
  | [], _, _ => rfl
  | x :: xs, matched, h => by
      cases hc : (step matched x).complete with
      | true => simp [settleAll, hc] at h
      | false =>
          simp only [settleAll, hc, Bool.false_eq_true, if_false] at h
          have ih := settleAll_append step ys xs (step matched x).matched h
          simp only [List.cons_append, settleAll, hc, Bool.false_eq_true, if_false, ih,
            Settled.after_after]
          rfl

theorem settleAll_singleton (step : Nat → UInt8 → Settled) (matched : Nat) (b : UInt8) :
    settleAll step matched [b] = step matched b := by
  cases hc : (step matched b).complete with
  | true => simp [settleAll, hc]
  | false =>
      simp only [settleAll, hc, Bool.false_eq_true, if_false, Settled.after, List.append_nil]
      exact congrArg (Settled.mk _ _) hc.symm

/-! ## One byte -/

namespace Kind

/-- What of a match belongs to the frame if the match breaks.  That is all of it but a dot. -/
def pendingBytes (k : Kind) (matched : Nat) : Bytes :=
  (k.delimiter.take matched).filter (· ≠ dot)

/-- Whether a byte is the dot that is there for transparency only. -/
def dropsDot (k : Kind) (matched : Nat) (b : UInt8) : Prop :=
  b = dot ∧ k.delimiter[matched]? = some dot

instance (k : Kind) (matched : Nat) (b : UInt8) : Decidable (k.dropsDot matched b) :=
  inferInstanceAs (Decidable (_ ∧ _))

/-- How much is matched after a byte. -/
def matchAfter (k : Kind) (matched : Nat) (b : UInt8) : Nat :=
  if k.delimiter[matched]? = some b then matched + 1 else if b = cr then 1 else 0

end Kind

theorem settle_matched {k : Kind} {matched : Nat} {b : UInt8}
    (h : k.delimiter[matched]? = some b) :
    settle k matched b = ⟨[], matched + 1, matched + 1 == k.delimiter.length⟩ := by
  unfold settle settleWithin
  rw [if_pos h]

theorem settle_broken_cr (k : Kind) :
    ∀ matched < k.delimiter.length, k.delimiter[matched]? ≠ some cr →
      settle k matched cr = ⟨k.pendingBytes matched, 1, false⟩ := by
  cases k <;> decide

theorem settle_broken_of_ne {k : Kind} {matched : Nat} {b : UInt8}
    (hm : matched < k.delimiter.length) (h : k.delimiter[matched]? ≠ some b) (hb : b ≠ cr) :
    settle k matched b = ⟨k.pendingBytes matched ++ [b], 0, false⟩ := by
  have hb' : ¬ cr = b := fun h => hb h.symm
  have hcd : ¬ cr = dot := by decide
  have hcl : ¬ cr = lf := by decide
  have hld : ¬ lf = dot := by decide
  cases k with
  | line =>
      have hm' : matched < 2 := hm
      obtain rfl | rfl : matched = 0 ∨ matched = 1 := by omega
      · simp [settle, settleWithin, Kind.delimiter, Kind.pendingBytes, crlf, hb']
      · have hl : ¬ lf = b := by simpa [Kind.delimiter, crlf] using h
        simp [settle, settleWithin, settleAll, Settled.after, Kind.delimiter, Kind.pendingBytes,
          Kind.retriedBytes, Kind.keptBytes, Kind.settledBytes, crlf, hb', hl, hcd]
  | message =>
      have hm' : matched < 5 := hm
      obtain rfl | rfl | rfl | rfl | rfl :
          matched = 0 ∨ matched = 1 ∨ matched = 2 ∨ matched = 3 ∨ matched = 4 := by omega
      · simp [settle, settleWithin, Kind.delimiter, Kind.pendingBytes, crlf, hb']
      · have hl : ¬ lf = b := by simpa [Kind.delimiter, crlf] using h
        simp [settle, settleWithin, settleAll, Settled.after, Kind.delimiter, Kind.pendingBytes,
          Kind.retriedBytes, Kind.keptBytes, Kind.settledBytes, crlf, hb', hl, hcd]
      · have hd : ¬ dot = b := by simpa [Kind.delimiter, crlf] using h
        simp [settle, settleWithin, settleAll, Settled.after, Kind.delimiter, Kind.pendingBytes,
          Kind.retriedBytes, Kind.keptBytes, Kind.settledBytes, crlf, hb', hd, hcd, hcl, hld]
      · simp [settle, settleWithin, settleAll, Settled.after, Kind.delimiter, Kind.pendingBytes,
          Kind.retriedBytes, Kind.keptBytes, Kind.settledBytes, crlf, hb', hcd, hld]
      · have hl : ¬ lf = b := by simpa [Kind.delimiter, crlf] using h
        simp [settle, settleWithin, settleAll, Settled.after, Kind.delimiter, Kind.pendingBytes,
          Kind.retriedBytes, Kind.keptBytes, Kind.settledBytes, crlf, hb', hl, hcd, hld]

/-- A byte continues the match, or begins one if it is a CR, or leaves none. -/
theorem settle_matchAfter {k : Kind} {matched : Nat} {b : UInt8}
    (hm : matched < k.delimiter.length) :
    (settle k matched b).matched = k.matchAfter matched b ∧
      (settle k matched b).complete = (k.matchAfter matched b == k.delimiter.length) := by
  have hlen : 1 < k.delimiter.length := by cases k <;> decide
  unfold Kind.matchAfter
  by_cases h : k.delimiter[matched]? = some b
  · rw [settle_matched h, if_pos h]
    exact ⟨rfl, rfl⟩
  · rw [if_neg h]
    by_cases hb : b = cr
    · subst hb
      rw [settle_broken_cr k matched hm h, if_pos rfl]
      exact ⟨rfl, (beq_false_of_ne (by omega)).symm⟩
    · rw [settle_broken_of_ne hm h hb, if_neg hb]
      exact ⟨rfl, (beq_false_of_ne (by omega)).symm⟩

/-- A match that is not complete is shorter than the delimiter. -/
theorem settle_lt {k : Kind} {matched : Nat} {b : UInt8} (hm : matched < k.delimiter.length)
    (hopen : (settle k matched b).complete = false) :
    (settle k matched b).matched < k.delimiter.length := by
  obtain ⟨hmatched, hcomplete⟩ := settle_matchAfter (b := b) hm
  rw [hopen] at hcomplete
  have hne : k.matchAfter matched b ≠ k.delimiter.length := beq_eq_false_iff_ne.1 hcomplete.symm
  have hle : k.matchAfter matched b ≤ matched + 1 := by
    unfold Kind.matchAfter
    split
    next => exact Nat.le_refl _
    next => split <;> omega
  rw [hmatched]
  omega

/-- Only the last byte of the delimiter completes a match, and it releases nothing. -/
theorem settle_of_complete {k : Kind} {matched : Nat} {b : UInt8}
    (hm : matched < k.delimiter.length) (hcomplete : (settle k matched b).complete = true) :
    matched + 1 = k.delimiter.length ∧ k.delimiter[matched]? = some b ∧
      settle k matched b = ⟨[], k.delimiter.length, true⟩ := by
  have hlen : 1 < k.delimiter.length := by cases k <;> decide
  have hafter : k.matchAfter matched b = k.delimiter.length :=
    beq_iff_eq.1 ((settle_matchAfter hm).2.symm.trans hcomplete)
  unfold Kind.matchAfter at hafter
  split at hafter
  next h =>
    refine ⟨hafter, h, ?_⟩
    rw [settle_matched h, hafter, beq_self_eq_true]
  next => split at hafter <;> omega

/-- What is released and what is pending are what was pending before, and the byte. -/
theorem settle_conserves {k : Kind} {matched : Nat} {b : UInt8}
    (hm : matched < k.delimiter.length) :
    (settle k matched b).released ++ k.pendingBytes (settle k matched b).matched
      = k.pendingBytes matched ++ (if k.dropsDot matched b then [] else [b]) := by
  by_cases h : k.delimiter[matched]? = some b
  · rw [settle_matched h]
    have htake : k.delimiter.take (matched + 1) = k.delimiter.take matched ++ [b] := by
      rw [List.take_add_one, h]
      rfl
    by_cases hb : b = dot
    · subst hb
      simp [Kind.pendingBytes, htake, Kind.dropsDot, h]
    · simp [Kind.pendingBytes, htake, Kind.dropsDot, hb]
  · have hdrop : ¬ k.dropsDot matched b := fun hd => h (hd.1 ▸ hd.2)
    rw [if_neg hdrop]
    by_cases hb : b = cr
    · subst hb
      rw [settle_broken_cr k matched hm h]
      cases k <;> rfl
    · rw [settle_broken_of_ne hm h hb]
      simp [Kind.pendingBytes]

/-! ## The bytes of a line -/

namespace Kind

/-- How much is matched when a line begins. -/
def opening : Kind → Nat
  | line => 0
  | message => 2

/-- How much is matched after the bytes of a line that has not ended. -/
def openMatch (k : Kind) (l : Bytes) : Nat :=
  if k = message ∧ l = [] then 2
  else if k = message ∧ l = [dot] then 3
  else if k = message ∧ l = [dot, cr] then 4
  else if l.getLast? = some cr then 1
  else 0

/-- What the bytes of a line add to its frame, with what is pending when the line begins. -/
def shown : Kind → Bytes → Bytes
  | line, l => l
  | message, l => crlf ++ unstuff l

end Kind

theorem openMatch_lt (k : Kind) (l : Bytes) : k.openMatch l < k.delimiter.length := by
  unfold Kind.openMatch
  cases k <;> simp [Kind.delimiter, crlf] <;> grind

/-- Away from the start of a line only a CR at the end of its bytes matters. -/
theorem openMatch_of_ne {k : Kind} {l : Bytes}
    (h : k = .message → l ≠ [] ∧ l ≠ [dot] ∧ l ≠ [dot, cr]) :
    k.openMatch l = if l.getLast? = some cr then 1 else 0 := by
  unfold Kind.openMatch
  rw [if_neg fun hl => (h hl.1).1 hl.2, if_neg fun hl => (h hl.1).2.1 hl.2,
    if_neg fun hl => (h hl.1).2.2 hl.2]

/-- The match is a function of the bytes of the line. -/
theorem matchAfter_openMatch {k : Kind} {l : Bytes} {b : UInt8} (h : IsLine (l ++ [b])) :
    k.matchAfter (k.openMatch l) b = k.openMatch (l ++ [b]) := by
  have hlf : l.getLast? = some cr → ¬ some lf = some b :=
    fun hl he => (isLine_concat.1 h).2 ⟨hl, (Option.some.inj he).symm⟩
  by_cases hk : k = .message ∧ (l = [] ∨ l = [dot] ∨ l = [dot, cr])
  · obtain ⟨rfl, rfl | rfl | rfl⟩ := hk
    · by_cases hb : b = dot
      · subst hb
        rfl
      · have hb' : ¬ some dot = some b := fun he => hb (Option.some.inj he).symm
        change (if some dot = some b then 3 else if b = cr then 1 else 0) = _
        rw [if_neg hb', List.nil_append, openMatch_of_ne (by simp [hb])]
        simp
    · by_cases hb : b = cr
      · subst hb
        rfl
      · have hb' : ¬ some cr = some b := fun he => hb (Option.some.inj he).symm
        change (if some cr = some b then 4 else if b = cr then 1 else 0) = _
        rw [if_neg hb', openMatch_of_ne (by simp [hb])]
        simp
    · change (if some lf = some b then 5 else if b = cr then 1 else 0) = _
      rw [if_neg (hlf rfl), openMatch_of_ne (by simp)]
      simp
  · have hne : k = .message → l ≠ [] ∧ l ≠ [dot] ∧ l ≠ [dot, cr] := by tauto
    have hne' : k = .message → l ++ [b] ≠ [] ∧ l ++ [b] ≠ [dot] ∧ l ++ [b] ≠ [dot, cr] := by
      intro hm
      obtain ⟨hnil, hdot, -⟩ := hne hm
      refine ⟨by simp, ?_, ?_⟩
      · intro he
        exact hnil (by simpa using congrArg List.dropLast he)
      · intro he
        exact hdot (by simpa using congrArg List.dropLast he)
    have hfirst : k.delimiter[0]? = some cr := by cases k <;> rfl
    have hsecond : k.delimiter[1]? = some lf := by cases k <;> rfl
    rw [openMatch_of_ne hne, openMatch_of_ne hne', List.getLast?_concat]
    unfold Kind.matchAfter
    by_cases hl : l.getLast? = some cr
    · rw [if_pos hl, hsecond, if_neg (hlf hl)]
      simp
    · rw [if_neg hl, hfirst]
      by_cases hb : b = cr
      · simp [hb]
      · have hb' : ¬ cr = b := fun he => hb he.symm
        simp [hb, hb']

/-- Only at the start of a line of a message a dot is dropped. -/
theorem dropsDot_openMatch {k : Kind} {l : Bytes} {b : UInt8} :
    k.dropsDot (k.openMatch l) b ↔ k = .message ∧ l = [] ∧ b = dot := by
  have hdot : ∀ matched < k.delimiter.length,
      k.delimiter[matched]? = some dot ↔ k = .message ∧ matched = 2 := by
    cases k <;> decide
  have hmatch : k.openMatch l = 2 ↔ k = .message ∧ l = [] := by
    unfold Kind.openMatch
    grind
  unfold Kind.dropsDot
  rw [hdot _ (openMatch_lt k l), hmatch]
  tauto

theorem shown_concat {k : Kind} {l : Bytes} {b : UInt8} :
    k.shown (l ++ [b]) = k.shown l ++ (if k.dropsDot (k.openMatch l) b then [] else [b]) := by
  by_cases hdrop : k.dropsDot (k.openMatch l) b
  · rw [if_pos hdrop]
    obtain ⟨rfl, rfl, rfl⟩ := dropsDot_openMatch.1 hdrop
    rfl
  · rw [if_neg hdrop]
    cases k with
    | line => rfl
    | message =>
        have hne : l ≠ [] ∨ b ≠ dot := by
          by_contra hc
          push Not at hc
          exact hdrop (dropsDot_openMatch.2 ⟨rfl, hc⟩)
        simp [Kind.shown, unstuff_concat hne]

/-- After the bytes of a line that has not ended, it is released up to what is pending. -/
theorem settleAll_open (k : Kind) {l : Bytes} (h : IsLine l) :
    ∃ v, settleAll (settle k) k.opening l = ⟨v, k.openMatch l, false⟩ ∧
      v ++ k.pendingBytes (k.openMatch l) = k.shown l := by
  induction l using List.reverseRecOn with
  | nil => exact ⟨[], by cases k <;> exact ⟨rfl, rfl⟩⟩
  | append_singleton l b ih =>
      obtain ⟨v, hv, hshown⟩ := ih (isLine_concat.1 h).1
      have hlt := openMatch_lt k l
      obtain ⟨hmatched, hcomplete⟩ := settle_matchAfter (b := b) hlt
      rw [matchAfter_openMatch h] at hmatched hcomplete
      rw [beq_false_of_ne (Nat.ne_of_lt (openMatch_lt k (l ++ [b])))] at hcomplete
      have hconserves := settle_conserves (b := b) hlt
      refine ⟨v ++ (settle k (k.openMatch l) b).released, ?_, ?_⟩
      · rw [settleAll_append _ _ _ _ (by rw [hv]), hv, settleAll_singleton, ← hmatched, ← hcomplete]
        rfl
      · rw [← hmatched, List.append_assoc, hconserves, ← List.append_assoc, hshown, shown_concat]

/-! ## The bytes of a message -/

/-- A line of a message that is no lone dot is released when the next line begins. -/
theorem settleAll_newline {l : Bytes} (h : IsLine l) (hdot : l ≠ [dot]) :
    settleAll (settle .message) 2 (l ++ crlf) = ⟨Kind.message.shown l, 2, false⟩ := by
  obtain ⟨v, hv, hshown⟩ := settleAll_open .message (isLine_concat_cr h)
  have hmatch : Kind.message.openMatch (l ++ [cr]) = 1 := by
    unfold Kind.openMatch
    rw [if_neg (by simp), if_neg (by simp [List.append_eq_singleton_iff, cr, dot])]
    rw [if_neg (by simpa [List.append_eq_cons_iff] using hdot)]
    simp
  rw [hmatch] at hv hshown
  have hkept : ¬ Kind.message.dropsDot (Kind.message.openMatch l) cr := fun hd => by
    cases hd.1
  rw [shown_concat, if_neg hkept] at hshown
  have hv' : v = Kind.message.shown l := List.append_cancel_right hshown
  have hsplit : l ++ crlf = l ++ [cr] ++ [lf] := by simp [crlf]
  change settleAll (settle .message) Kind.message.opening (l ++ crlf) = _
  rw [hsplit, settleAll_append _ _ _ _ (by rw [hv]), hv, settleAll_singleton, settle_matched rfl, hv']
  simp [Settled.after, Kind.delimiter, crlf]

/-- In the middle of a message all lines before this one are released. -/
theorem settleAll_lines {ls : List Bytes} (hls : ∀ l ∈ ls, IsLine l ∧ l ≠ [dot]) {l : Bytes}
    (h : IsLine l) :
    ∃ v, settleAll (settle .message) 2 (join ls ++ l) = ⟨v, Kind.message.openMatch l, false⟩ ∧
      v ++ Kind.message.pendingBytes (Kind.message.openMatch l)
        = ls.flatMap Kind.message.shown ++ Kind.message.shown l := by
  induction ls with
  | nil => exact settleAll_open .message h
  | cons l' ls ih =>
      obtain ⟨hl', hdot⟩ := hls l' (List.mem_cons_self ..)
      obtain ⟨v, hv, hshown⟩ := ih fun l hl => hls l (List.mem_cons_of_mem _ hl)
      have hline := settleAll_newline hl' hdot
      refine ⟨Kind.message.shown l' ++ v, ?_, ?_⟩
      · rw [join_cons, List.append_assoc, settleAll_append _ _ _ _ (by rw [hline]), hline, hv]
        rfl
      · rw [List.append_assoc, hshown, List.flatMap_cons, List.append_assoc]

end SmtpReceiver.Framing
