import Mathlib.Logic.Relation
import SmtpReceiver.Proofs.Framing.Headroom

/-!
# Calls within calls

A byte that breaks a match has some of it written at once, and is fed again behind the rest.
Feeding these bytes may break matches in turn.  So feeding is a recursion that goes by the state
it leaves, and nothing in it says that it comes to an end.  `Feeds` is this recursion as it stands.
There is a derivation for each call that returns, and none if a call goes on forever or looks
behind the end of the delimiter.

It ends because no more is fed again than was matched (`length_fedAgain_le`), and a byte makes the
match at most one byte longer.  So the calls within a call begin with a shorter match (`Calls.lt`), and
none that is not the last one can complete the delimiter (`FeedsAll.not_complete`).

`settle` counts broken matches against a bound, and writes nothing before all is settled.  The bound
is never reached (`settleWithin_eq`), and it makes no difference when bytes are written
(`Feeds.performs`).  So the recursion does what the decoder does.
-/

namespace SmtpReceiver.Framing

open Text (Bytes)

variable {k : Kind} {step step' : Nat → UInt8 → Settled}

namespace Kind

/-- What is written at once when a byte breaks a match.  Without a match it is the byte. -/
def writtenAtOnce (k : Kind) (matched : Nat) (b : UInt8) : Bytes :=
  if matched = 0 then [b] else k.keptBytes matched

/-- What is fed again when a byte breaks a match. -/
def fedAgain (k : Kind) (matched : Nat) (b : UInt8) : Bytes :=
  if matched = 0 then [] else k.retriedBytes matched ++ [b]

/-- No more is fed again than was matched, the byte included. -/
theorem length_fedAgain_le (k : Kind) (matched : Nat) (b : UInt8) :
    (k.fedAgain matched b).length ≤ matched := by
  unfold fedAgain
  split
  next => exact Nat.zero_le _
  next hm =>
    rw [List.length_append, List.length_singleton]
    exact k.length_retriedBytes_lt hm

end Kind

/-! ## Settling without a bound -/

/-- If a byte makes a match at most one byte longer, bytes make it no longer than they are. -/
theorem matched_settleAll_le (hstep : ∀ m b, (step m b).matched ≤ m + 1) :
    ∀ (bs : Bytes) (m : Nat), (settleAll step m bs).matched ≤ m + bs.length
  | [], m => Nat.le_refl m
  | b :: bs, m => by
      have hb := hstep m b
      rw [settleAll, List.length_cons]
      split
      next => omega
      next =>
        have hbs := matched_settleAll_le hstep bs (step m b).matched
        simp only [Settled.after]
        omega

/-- Steps that agree on short matches agree on as many bytes as these matches leave room for. -/
theorem settleAll_congr {n : Nat} (hstep : ∀ m b, (step m b).matched ≤ m + 1)
    (h : ∀ m < n, ∀ b, step m b = step' m b) :
    ∀ (bs : Bytes) (m : Nat), m + bs.length ≤ n → settleAll step m bs = settleAll step' m bs
  | [], m, _ => rfl
  | b :: bs, m, hm => by
      rw [List.length_cons] at hm
      have hb := hstep m b
      have ih := settleAll_congr hstep h bs (step m b).matched (by omega)
      rw [settleAll, settleAll, ih, h m (by omega) b]

theorem matched_settleWithin_le : ∀ (bound m : Nat) (b : UInt8),
    (settleWithin k bound m b).matched ≤ m + 1 := by
  intro bound
  induction bound with
  | zero =>
      intro m b
      unfold settleWithin
      split
      next => exact Nat.le_refl _
      next => split <;> simp
  | succ bound ih =>
      intro m b
      unfold settleWithin
      split
      next => exact Nat.le_refl _
      next =>
        split
        next => simp
        next hm =>
          have hall := matched_settleAll_le ih (k.retriedBytes m ++ [b]) 0
          have hlength := k.length_retriedBytes_lt hm
          simp only [Settled.after]
          rw [List.length_append, List.length_singleton] at hall
          omega

/-- As many broken matches as there are bytes in the first one are enough. -/
theorem settleWithin_eq (bound : Nat) : ∀ m ≤ bound, ∀ b, settleWithin k bound m b = settle k m b := by
  induction bound using Nat.strongRecOn with
  | ind bound ih =>
      intro m hm b
      cases m with
      | zero =>
          unfold settle settleWithin
          rfl
      | succ m =>
          obtain ⟨bound, rfl⟩ : ∃ n, bound = n + 1 := ⟨bound - 1, by omega⟩
          have hlength : 0 + (k.retriedBytes (m + 1) ++ [b]).length ≤ m + 1 := by
            rw [Nat.zero_add]
            exact k.length_fedAgain_le (m + 1) b
          have hagree : ∀ i < m + 1, ∀ b, settleWithin k bound i b = settleWithin k m i b := by
            intro i hi b
            rw [ih bound (Nat.lt_succ_self _) i (by omega), ih m (by omega) i (by omega)]
          have hall := settleAll_congr (matched_settleWithin_le bound) hagree _ 0 hlength
          unfold settle settleWithin
          simp only [hall]

theorem matched_settle_le (m : Nat) (b : UInt8) : (settle k m b).matched ≤ m + 1 :=
  matched_settleWithin_le m m b

/-- A broken match is settled by writing some bytes and settling others again. -/
theorem settle_broken {m : Nat} {b : UInt8} (h : k.delimiter[m]? ≠ some b) :
    settle k m b = (settleAll (settle k) 0 (k.fedAgain m b)).after (k.writtenAtOnce m b) := by
  cases m with
  | zero =>
      unfold settle settleWithin
      rw [if_neg h]
      rfl
  | succ m =>
      have hagree : ∀ i < m + 1, ∀ b, settleWithin k m i b = settle k i b :=
        fun i hi => settleWithin_eq m i (by omega)
      have hlength : 0 + (k.fedAgain (m + 1) b).length ≤ m + 1 := by
        rw [Nat.zero_add]
        exact k.length_fedAgain_le (m + 1) b
      have hall := settleAll_congr (matched_settleWithin_le m) hagree _ 0 hlength
      rw [← hall]
      unfold settle settleWithin
      rw [if_neg h]
      rfl

namespace Decoder

variable {settings : Settings} {d d₁ d₂ d' : Decoder} {b : UInt8}

/-! ## The recursion -/

/-- How a call returns: with a failure to write, or with whether the delimiter is complete. -/
abbrev Answer := Except IoFailure Bool

/-- There is a next byte of the delimiter, this is another one, and this is the outcome of writing
what is written at once. -/
structure Breaks (settings : Settings) (k : Kind) (d : Decoder) (b : UInt8)
    (written : Option IoFailure × Decoder) : Prop where
  other : ∃ c, k.delimiter[d.matched]? = some c ∧ c ≠ b
  outcome : emit settings k (k.writtenAtOnce d.matched b) { d with matched := 0 } = written

mutual

/-- A call with a byte, the decoder that it leaves, and how it returns. -/
inductive Feeds (settings : Settings) (k : Kind) : Decoder → UInt8 → Decoder → Answer → Prop where
  /-- The byte continues the match. -/
  | continued {d : Decoder} {b : UInt8} : k.delimiter[d.matched]? = some b →
    Feeds settings k d b { d with matched := d.matched + 1 }
      (.ok (d.matched + 1 == k.delimiter.length))
  /-- The byte breaks the match, and is fed again behind what is left of it. -/
  | broken {d d₁ d' : Decoder} {b : UInt8} {r : Answer} : Breaks settings k d b (none, d₁) →
    FeedsAll settings k d₁ (k.fedAgain d.matched b) d' r → Feeds settings k d b d' r
  /-- The byte breaks the match, and what is written at once cannot be written. -/
  | failed {d d' : Decoder} {b : UInt8} {cause : IoFailure} :
    Breaks settings k d b (some cause, d') → Feeds settings k d b d' (.error cause)

/-- Calls with one byte after the other, up to the first that fails or completes the delimiter. -/
inductive FeedsAll (settings : Settings) (k : Kind) : Decoder → Bytes → Decoder → Answer → Prop where
  | nil {d : Decoder} : FeedsAll settings k d [] d (.ok false)
  | more {d d₁ d' : Decoder} {b : UInt8} {bs : Bytes} {r : Answer} :
    Feeds settings k d b d₁ (.ok false) → FeedsAll settings k d₁ bs d' r →
      FeedsAll settings k d (b :: bs) d' r
  | stops {d d' : Decoder} {b : UInt8} {bs : Bytes} {r : Answer} :
    Feeds settings k d b d' r → r ≠ .ok false → FeedsAll settings k d (b :: bs) d' r

end

/-- The first call makes the second one.  All that it makes before have returned by then. -/
inductive Calls (settings : Settings) (k : Kind) : Decoder × UInt8 → Decoder × UInt8 → Prop where
  | intro {d d₁ d₂ : Decoder} {b x : UInt8} {xs ys : Bytes} : Breaks settings k d b (none, d₁) →
    k.fedAgain d.matched b = xs ++ x :: ys → FeedsAll settings k d₁ xs d₂ (.ok false) →
      Calls settings k (d, b) (d₂, x)

theorem Breaks.ne {w : Option IoFailure × Decoder} (h : Breaks settings k d b w) :
    k.delimiter[d.matched]? ≠ some b := by
  obtain ⟨c, hc, hne⟩ := h.other
  rw [hc]
  exact fun heq => hne (Option.some.inj heq)

theorem Breaks.lt {w : Option IoFailure × Decoder} (h : Breaks settings k d b w) :
    d.matched < k.delimiter.length := by
  obtain ⟨c, hc, -⟩ := h.other
  exact (List.getElem?_eq_some_iff.1 hc).1

theorem matched_emit (settings : Settings) (k : Kind) (bs : Bytes) (d : Decoder) :
    (emit settings k bs d).2.matched = d.matched := by
  obtain ⟨store, hemit⟩ := emit_eq settings k bs d
  rw [hemit]

theorem Breaks.matched_eq {cause? : Option IoFailure} (h : Breaks settings k d b (cause?, d₁)) :
    d₁.matched = 0 := by
  have hmatched := matched_emit settings k (k.writtenAtOnce d.matched b) { d with matched := 0 }
  rwa [h.outcome] at hmatched

/-! ## What calls do -/

theorem emit_append (xs ys : Bytes) (d : Decoder) :
    emit settings k (xs ++ ys) d
      = match emit settings k xs d with
        | (none, d') => emit settings k ys d'
        | (some cause, d') => (some cause, d') := by
  induction xs generalizing d with
  | nil => rfl
  | cons x xs ih =>
      simp only [List.cons_append, emit]
      split
      next => exact ih _
      next =>
        split
        next => exact ih _
        next => rfl

/-- What a decoder makes of settled bytes.  It writes what is released, and has matched the rest. -/
def perform (settings : Settings) (k : Kind) (d : Decoder) (s : Settled) : Decoder × Answer :=
  match emit settings k s.released { d with matched := 0 } with
  | (some cause, d) => (d, .error cause)
  | (none, d) => ({ d with matched := s.matched }, .ok s.complete)

/-- What a call comes to for the frame in progress.  A complete delimiter ends it. -/
def ended (settings : Settings) (k : Kind) :
    Decoder × Answer → Decoder × Except Failure (Option Frame)
  | (d, .error cause) => (d, .error (.io cause))
  | (d, .ok false) => (d, .ok none)
  | (d, .ok true) =>
    let r := d.finish settings k
    (r.1, r.2.map some)

theorem feedFrame_eq_ended (d : Decoder) (b : UInt8) :
    d.feedFrame settings k b = ended settings k (perform settings k d (settle k d.matched b)) := by
  simp only [feedFrame, perform]
  generalize emit settings k (settle k d.matched b).released { d with matched := 0 } = w
  obtain ⟨cause?, d₁⟩ := w
  cases cause? with
  | some cause => rfl
  | none => cases (settle k d.matched b).complete <;> rfl

/-- Bytes released before are written first. -/
theorem perform_after (d : Decoder) (s : Settled) (bs : Bytes) :
    perform settings k d (s.after bs)
      = match emit settings k bs { d with matched := 0 } with
        | (some cause, d') => (d', .error cause)
        | (none, d') => perform settings k d' s := by
  have hmatched := matched_emit settings k bs { d with matched := 0 }
  simp only [perform, Settled.after, emit_append]
  generalize emit settings k bs { d with matched := 0 } = w at hmatched
  obtain ⟨cause?, d₁⟩ := w
  cases cause? with
  | some cause => rfl
  | none =>
      obtain ⟨kind, matched, phantom, store⟩ := d₁
      cases hmatched
      rfl

theorem perform_of_ok {s : Settled} {complete : Bool}
    (h : perform settings k d s = (d', .ok complete)) :
    d'.matched = s.matched ∧ complete = s.complete := by
  simp only [perform] at h
  split at h
  next => cases h
  next =>
    cases h
    exact ⟨rfl, rfl⟩

theorem perform_of_error {s : Settled} {cause : IoFailure}
    (h : perform settings k d s = (d', .error cause)) : d'.matched = 0 := by
  have hmatched := matched_emit settings k s.released { d with matched := 0 }
  simp only [perform] at h
  split at h
  next hemit =>
    rw [hemit] at hmatched
    cases h
    exact hmatched
  next => cases h

/-- Settling bytes one after the other is performed one after the other. -/
theorem perform_settleAll_cons (step : Nat → UInt8 → Settled) (d : Decoder) (m : Nat) (b : UInt8)
    (bs : Bytes) :
    perform settings k d (settleAll step m (b :: bs))
      = match perform settings k d (step m b) with
        | (d₁, .ok false) => perform settings k d₁ (settleAll step (step m b).matched bs)
        | w => w := by
  rw [settleAll]
  cases hcomplete : (step m b).complete with
  | true =>
      simp only [perform, hcomplete, if_true]
      split <;> rfl
  | false =>
      simp only [Bool.false_eq_true, if_false, perform_after]
      simp only [perform, hcomplete]
      split <;> rfl

mutual

/-- A call does what settling the byte and writing what is released does. -/
theorem Feeds.performs {d d' : Decoder} {b : UInt8} {r : Answer} :
    Feeds settings k d b d' r → perform settings k d (settle k d.matched b) = (d', r)
  | .continued h => by
      rw [settle_matched h]
      rfl
  | .broken hbreaks hagain => by
      have hall := hagain.performs
      rw [hbreaks.matched_eq] at hall
      rw [settle_broken hbreaks.ne, perform_after, hbreaks.outcome]
      exact hall
  | .failed hbreaks => by rw [settle_broken hbreaks.ne, perform_after, hbreaks.outcome]

theorem FeedsAll.performs {d d' : Decoder} {bs : Bytes} {r : Answer} :
    FeedsAll settings k d bs d' r →
      perform settings k d (settleAll (settle k) d.matched bs) = (d', r)
  | .nil => rfl
  | .more hb hbs => by
      have hfirst := hb.performs
      have hrest := hbs.performs
      rw [perform_settleAll_cons, hfirst, ← (perform_of_ok hfirst).1]
      exact hrest
  | .stops hb hr => by
      rw [perform_settleAll_cons, hb.performs]
      split
      next heq =>
        cases heq
        exact absurd rfl hr
      next => rfl

end

theorem Feeds.lt {r : Answer} (h : Feeds settings k d b d' r) : d.matched < k.delimiter.length := by
  cases h with
  | continued h => exact (List.getElem?_eq_some_iff.1 h).1
  | broken hbreaks _ => exact hbreaks.lt
  | failed hbreaks => exact hbreaks.lt

/-- What is matched after a call that does not fail, and when it completes the delimiter. -/
theorem Feeds.matched_of_ok {complete : Bool} (h : Feeds settings k d b d' (.ok complete)) :
    d'.matched = k.matchAfter d.matched b ∧ complete = (d'.matched == k.delimiter.length) := by
  obtain ⟨hmatched, hcomplete⟩ := perform_of_ok h.performs
  obtain ⟨hafter, hend⟩ := settle_matchAfter (b := b) h.lt
  rw [hmatched, hcomplete, hafter, hend]
  exact ⟨rfl, rfl⟩

/-- A byte makes the match at most one byte longer. -/
theorem Feeds.matched_le {complete : Bool} (h : Feeds settings k d b d' (.ok complete)) :
    d'.matched ≤ d.matched + 1 := by
  rw [(perform_of_ok h.performs).1]
  exact matched_settle_le d.matched b

theorem Feeds.matched_of_error {cause : IoFailure} (h : Feeds settings k d b d' (.error cause)) :
    d'.matched = 0 := perform_of_error h.performs

/-- Bytes that neither fail nor complete the delimiter make the match no longer than they are. -/
theorem FeedsAll.matched_le {bs : Bytes} (h : FeedsAll settings k d bs d' (.ok false)) :
    d'.matched ≤ d.matched + bs.length := by
  rw [(perform_of_ok h.performs).1]
  exact matched_settleAll_le matched_settle_le bs d.matched

/-- A delimiter is not completed by fewer bytes than it has left. -/
theorem FeedsAll.length_le_of_complete {bs : Bytes}
    (h : FeedsAll settings k d bs d' (.ok true)) : k.delimiter.length ≤ d.matched + bs.length := by
  induction bs generalizing d with
  | nil => cases h
  | cons b bs ih =>
      rw [List.length_cons]
      cases h with
      | @more _ d₁ _ _ _ _ hb hbs =>
          have hrest := ih hbs
          have hle := hb.matched_le
          omega
      | stops hb _ =>
          have hle := hb.matched_le
          have hend : d'.matched = k.delimiter.length := eq_of_beq hb.matched_of_ok.2.symm
          omega

/-! ## Every call returns -/

/-- If all calls with a short match return, so do calls with as many bytes as leave it short. -/
theorem exists_feedsAll {n : Nat}
    (hcalls : ∀ (d : Decoder) (b : UInt8), d.matched < n → ∃ d' r, Feeds settings k d b d' r) :
    ∀ (bs : Bytes) (d : Decoder), d.matched + bs.length ≤ n → ∃ d' r, FeedsAll settings k d bs d' r
  | [], d, _ => ⟨d, .ok false, .nil⟩
  | b :: bs, d, hn => by
      rw [List.length_cons] at hn
      obtain ⟨d₁, r₁, hb⟩ := hcalls d b (by omega)
      by_cases hr : r₁ = .ok false
      · subst hr
        have hle := hb.matched_le
        obtain ⟨d', r, hbs⟩ := exists_feedsAll hcalls bs d₁ (by omega)
        exact ⟨d', r, .more hb hbs⟩
      · exact ⟨d₁, r₁, .stops hb hr⟩

/-- A call with a match within the delimiter returns.  The induction is on the match, since what is
fed again is no more than that. -/
theorem exists_feeds (settings : Settings) (n : Nat) : ∀ (d : Decoder) (b : UInt8), d.matched = n →
    n < k.delimiter.length → ∃ d' r, Feeds settings k d b d' r := by
  induction n using Nat.strongRecOn with
  | ind n ih =>
      rintro d b rfl hn
      obtain ⟨c, hc⟩ : ∃ c, k.delimiter[d.matched]? = some c := ⟨_, List.getElem?_eq_getElem hn⟩
      by_cases hb : c = b
      · exact ⟨_, _, .continued (hb ▸ hc)⟩
      · cases hemit : emit settings k (k.writtenAtOnce d.matched b) { d with matched := 0 } with
        | mk cause? d₁ =>
            have hbreaks : Breaks settings k d b (cause?, d₁) := ⟨⟨c, hc, hb⟩, hemit⟩
            cases cause? with
            | some cause => exact ⟨d₁, .error cause, .failed hbreaks⟩
            | none =>
                have hshorter : ∀ (e : Decoder) (x : UInt8), e.matched < d.matched →
                    ∃ d' r, Feeds settings k e x d' r :=
                  fun e x he => ih e.matched he e x rfl (Nat.lt_trans he hn)
                have hlength : d₁.matched + (k.fedAgain d.matched b).length ≤ d.matched := by
                  rw [hbreaks.matched_eq, Nat.zero_add]
                  exact k.length_fedAgain_le d.matched b
                obtain ⟨d', r, hagain⟩ := exists_feedsAll hshorter _ d₁ hlength
                exact ⟨d', r, .broken hbreaks hagain⟩

/-- A call with a match within the delimiter returns in one way. -/
theorem existsUnique_feeds (settings : Settings) (b : UInt8) (h : d.matched < k.delimiter.length) :
    ∃! w : Decoder × Answer, Feeds settings k d b w.1 w.2 := by
  obtain ⟨d', r, hfeeds⟩ := exists_feeds settings d.matched d b rfl h
  exact ⟨(d', r), hfeeds, fun w hw => hw.performs.symm.trans hfeeds.performs⟩

theorem feeds_iff {r : Answer} (h : d.matched < k.delimiter.length) :
    Feeds settings k d b d' r ↔ perform settings k d (settle k d.matched b) = (d', r) := by
  refine ⟨Feeds.performs, fun hperform => ?_⟩
  obtain ⟨e, s, hfeeds⟩ := exists_feeds settings d.matched d b rfl h
  obtain ⟨rfl, rfl⟩ := Prod.mk.inj (hfeeds.performs.symm.trans hperform)
  exact hfeeds

/-! ## Calls within a call -/

/-- Each call within a call begins with a shorter match. -/
theorem Calls.lt {c c' : Decoder × UInt8} (h : Calls settings k c c') :
    c'.1.matched < c.1.matched := by
  cases h with
  | @intro d d₁ d₂ b x xs ys hbreaks hagain hxs =>
      have hle := hxs.matched_le
      have hlength := k.length_fedAgain_le d.matched b
      rw [hbreaks.matched_eq] at hle
      rw [hagain, List.length_append, List.length_cons] at hlength
      show d₂.matched < d.matched
      omega

theorem wellFounded_calls (settings : Settings) (k : Kind) :
    WellFounded fun c' c => Calls settings k c c' :=
  Subrelation.wf Calls.lt (measure fun c : Decoder × UInt8 => c.1.matched).wf

theorem matched_le_of_calls {c c' : Decoder × UInt8}
    (h : Relation.ReflTransGen (Calls settings k) c c') : c'.1.matched ≤ c.1.matched := by
  induction h with
  | refl => exact Nat.le_refl _
  | tail _ hcall ih => exact Nat.le_trans (Nat.le_of_lt hcall.lt) ih

/-- The bytes of a match that are fed again do not complete the delimiter. -/
theorem FeedsAll.not_complete (hbreaks : Breaks settings k d b (none, d₁)) :
    ¬ FeedsAll settings k d₁ (k.retriedBytes d.matched) d₂ (.ok true) := by
  intro h
  have hlength := h.length_le_of_complete
  have hshort : (k.retriedBytes d.matched).length ≤ d.matched := by
    rw [Kind.retriedBytes, List.length_drop, List.length_take]
    omega
  have hlt := hbreaks.lt
  rw [hbreaks.matched_eq] at hlength
  omega

end Decoder

end SmtpReceiver.Framing
