import SmtpReceiver.Proofs.Framing.Replay

/-!
# The longest match

How much is matched says how much of what was fed may be the beginning of the delimiter.  It is
the *longest* end of these bytes with which the delimiter begins.  The CRLF in front of a message
is one of them.

A byte that breaks a match could leave a shorter one, which overlaps the end of the broken one.
In both delimiters an overlap goes on with the same byte as the match does (`overlap_goes_on`).
So that byte breaks it too, and at most the byte itself begins a match (`IsLongest.concat`).
Thus nothing is missed when a dot is dropped and not fed again.

A failure to write leaves nothing matched, whatever was fed.  It comes before what is left of the
match is fed again (`failed_call_forgets`).  From then on only the bytes count that are fed after
it, which is what `FedSince` says of them (`calls_end_within_delimiter`).
-/

namespace SmtpReceiver.Framing

open Text (Bytes)

variable {k : Kind} {fed w : Bytes} {b : UInt8} {m : Nat}

/-- The bytes in front of a frame that count as fed. -/
def Kind.before : Kind → Bytes
  | line => []
  | message => crlf

/-- Of all ends of the bytes fed with which the delimiter begins, the longest has this length. -/
structure IsLongest (k : Kind) (fed : Bytes) (n : Nat) : Prop where
  reached : ∃ w, w <+: k.delimiter ∧ w <:+ fed ∧ w.length = n
  longest : ∀ w, w <+: k.delimiter → w <:+ fed → w.length ≤ n

theorem isLongest_nil (k : Kind) : IsLongest k [] 0 where
  reached := ⟨[], List.nil_prefix, List.nil_suffix, rfl⟩
  longest _ _ hw := Nat.le_of_eq (congrArg List.length (List.suffix_nil.1 hw))

/-- All that was fed may be a match. -/
theorem isLongest_of_begins (h : fed <+: k.delimiter) : IsLongest k fed fed.length where
  reached := ⟨fed, h, List.suffix_refl fed, rfl⟩
  longest _ _ hw := hw.length_le

/-! ## One byte -/

theorem concat_prefix_iff : w ++ [b] <+: k.delimiter ↔
    w <+: k.delimiter ∧ k.delimiter[w.length]? = some b := by
  constructor
  · rintro ⟨rest, hrest⟩
    refine ⟨⟨b :: rest, by rw [← hrest, List.append_assoc]; rfl⟩, ?_⟩
    rw [← hrest]
    simp
  · rintro ⟨⟨rest, hrest⟩, hb⟩
    rw [← hrest] at hb
    cases rest with
    | nil => simp at hb
    | cons c rest =>
        obtain rfl : c = b := by simpa using hb
        exact ⟨rest, by rw [List.append_assoc]; exact hrest⟩

/-- What overlaps the end of a match goes on as the match does, if it is not empty. -/
theorem overlap_goes_on (k : Kind) : ∀ m < k.delimiter.length, ∀ n < m,
    k.delimiter.take n <:+ k.delimiter.take m → n = 0 ∨ k.delimiter[n]? = k.delimiter[m]? := by
  cases k <;> decide

namespace IsLongest

/-- An end that the new byte is part of was one without it, and goes on with it. -/
theorem ends_concat (h : IsLongest k fed m) (hw : w <+: k.delimiter) (hfed : w <:+ fed ++ [b]) :
    w = [] ∨ ∃ u, w = u ++ [b] ∧ u <+: k.delimiter ∧ u <:+ fed ∧ u.length ≤ m ∧
      k.delimiter[u.length]? = some b := by
  obtain rfl | ⟨u, rfl, hu⟩ := List.suffix_concat_iff.1 hfed
  · exact .inl rfl
  · obtain ⟨hbegins, hnext⟩ := concat_prefix_iff.1 hw
    exact .inr ⟨u, rfl, hbegins, hu, h.longest u hbegins hu, hnext⟩

/-- Behind a byte that breaks the match, at most the byte itself begins one. -/
theorem ends_of_broken (h : IsLongest k fed m) (hm : m < k.delimiter.length)
    (hbreaks : k.delimiter[m]? ≠ some b) (hw : w <+: k.delimiter) (hfed : w <:+ fed ++ [b]) :
    w = [] ∨ w = [b] ∧ b = cr := by
  obtain ⟨v, hv, hvfed, rfl⟩ := h.reached
  obtain rfl | ⟨u, rfl, hbegins, hu, hle, hnext⟩ := h.ends_concat hw hfed
  · exact .inl rfl
  · have hne : u.length ≠ v.length := fun heq => hbreaks (heq ▸ hnext)
    have hoverlap : k.delimiter.take u.length <:+ k.delimiter.take v.length := by
      rw [← List.prefix_iff_eq_take.1 hv, ← List.prefix_iff_eq_take.1 hbegins]
      exact List.suffix_of_suffix_length_le hu hvfed hle
    obtain hzero | hsame := overlap_goes_on k _ hm _ (by omega) hoverlap
    · obtain rfl := List.eq_nil_of_length_eq_zero hzero
      have hfirst : k.delimiter[0]? = some cr := by cases k <;> rfl
      exact .inr ⟨rfl, Option.some.inj (hnext.symm.trans hfirst)⟩
    · exact absurd (hsame ▸ hnext) hbreaks

/-- After a byte the longest match is the one that the byte leaves. -/
theorem concat (h : IsLongest k fed m) (hm : m < k.delimiter.length) (b : UInt8) :
    IsLongest k (fed ++ [b]) (k.matchAfter m b) := by
  unfold Kind.matchAfter
  by_cases hnext : k.delimiter[m]? = some b
  · rw [if_pos hnext]
    obtain ⟨v, hv, hvfed, rfl⟩ := h.reached
    refine ⟨⟨v ++ [b], concat_prefix_iff.2 ⟨hv, hnext⟩, ?_, by simp⟩, fun w hw hfed => ?_⟩
    · exact List.suffix_concat_iff.2 (.inr ⟨v, rfl, hvfed⟩)
    · obtain rfl | ⟨u, rfl, -, -, hle, -⟩ := h.ends_concat hw hfed
      · exact Nat.zero_le _
      · rw [List.length_append, List.length_singleton]
        exact Nat.succ_le_succ hle
  · rw [if_neg hnext]
    by_cases hb : b = cr
    · rw [if_pos hb]
      have hbegins : [b] <+: k.delimiter := by
        rw [hb]
        cases k <;> decide
      refine ⟨⟨[b], hbegins, List.suffix_append _ _, rfl⟩, fun w hw hfed => ?_⟩
      obtain rfl | ⟨rfl, -⟩ := h.ends_of_broken hm hnext hw hfed
      · exact Nat.zero_le _
      · exact Nat.le_refl _
    · rw [if_neg hb]
      refine ⟨⟨[], List.nil_prefix, List.nil_suffix, rfl⟩, fun w hw hfed => ?_⟩
      obtain rfl | ⟨-, hcr⟩ := h.ends_of_broken hm hnext hw hfed
      · exact Nat.le_refl _
      · exact absurd hcr hb

end IsLongest

namespace Decoder

variable {settings : Settings} {d d' : Decoder}

/-! ## A frame in progress -/

/-- A decoder in a frame, and the bytes that were fed to it.  They begin with what is in front of the
frame, and after a failure there are none. -/
inductive FedSince (settings : Settings) (k : Kind) : Decoder → Bytes → Prop where
  | start (d : Decoder) : FedSince settings k (d.start k) k.before
  | fed {d d' : Decoder} {fed : Bytes} {b : UInt8} : FedSince settings k d fed →
    Feeds settings k d b d' (.ok false) → FedSince settings k d' (fed ++ [b])
  | failed {d d' : Decoder} {fed : Bytes} {b : UInt8} {cause : IoFailure} :
    FedSince settings k d fed → Feeds settings k d b d' (.error cause) → FedSince settings k d' []

theorem delimiter_pos (k : Kind) : 0 < k.delimiter.length := by cases k <;> decide

/-- A call that does not fail leaves the longest match of what was fed. -/
theorem Feeds.isLongest {complete : Bool} (h : Feeds settings k d b d' (.ok complete))
    (hfed : IsLongest k fed d.matched) : IsLongest k (fed ++ [b]) d'.matched := by
  rw [h.matched_of_ok.1]
  exact hfed.concat h.lt b

/-- The match of a frame in progress is the longest, and is no whole delimiter. -/
theorem FedSince.isLongest (h : FedSince settings k d fed) :
    IsLongest k fed d.matched ∧ d.matched < k.delimiter.length := by
  induction h with
  | start d =>
      cases k with
      | line => exact ⟨isLongest_nil _, delimiter_pos .line⟩
      | message =>
          have hbegins : crlf <+: Kind.message.delimiter := by decide
          have hshort : crlf.length < Kind.message.delimiter.length := by decide
          exact ⟨isLongest_of_begins hbegins, hshort⟩
  | @fed d d' _ b _ hb ih =>
      obtain ⟨hmatched, hopen⟩ := hb.matched_of_ok
      have hle : d'.matched ≤ k.delimiter.length := by
        obtain ⟨w, hw, -, hlength⟩ := (hb.isLongest ih.1).reached
        exact hlength ▸ hw.length_le
      exact ⟨hb.isLongest ih.1, Nat.lt_of_le_of_ne hle (beq_eq_false_iff_ne.1 hopen.symm)⟩
  | failed _ hb _ =>
      rw [hb.matched_of_error]
      exact ⟨isLongest_nil _, delimiter_pos k⟩

/-- Calls come to an end.  With a match within the delimiter a call returns, in one way, and this is
what the decoder does with the byte.  All calls within it have a match within the delimiter too, and
the bytes of a match that are fed again complete none.  In a frame that is in progress the match is
the longest of what was fed, and a failure leaves none. -/
theorem calls_end_within_delimiter (settings : Settings) (k : Kind) :
    WellFounded (fun c' c => Calls settings k c c') ∧
    (∀ (d : Decoder) (b : UInt8), d.matched < k.delimiter.length →
      (∃! w : Decoder × Answer, Feeds settings k d b w.1 w.2) ∧
      (∀ d' r, Feeds settings k d b d' r → d.feedFrame settings k b = ended settings k (d', r)) ∧
      ∀ c, Relation.ReflTransGen (Calls settings k) (d, b) c →
        c.1.matched < k.delimiter.length ∧
        ∀ d₁ d₂, Breaks settings k c.1 c.2 (none, d₁) →
          ¬ FeedsAll settings k d₁ (k.retriedBytes c.1.matched) d₂ (.ok true)) ∧
    ∀ (d : Decoder) (fed : Bytes), FedSince settings k d fed →
      d.matched < k.delimiter.length ∧
      ∀ (b : UInt8) (d' : Decoder),
        (∀ complete, Feeds settings k d b d' (.ok complete) →
          IsLongest k (fed ++ [b]) d'.matched ∧
            complete = (d'.matched == k.delimiter.length)) ∧
        ∀ cause, Feeds settings k d b d' (.error cause) → d'.matched = 0 := by
  refine ⟨wellFounded_calls settings k, fun d b hd => ⟨?_, ?_, ?_⟩, fun d fed hfed => ⟨?_, ?_⟩⟩
  · exact existsUnique_feeds settings b hd
  · intro d' r h
    rw [feedFrame_eq_ended, h.performs]
  · intro c hc
    have hle : c.1.matched ≤ d.matched := matched_le_of_calls hc
    exact ⟨Nat.lt_of_le_of_lt hle hd, fun d₁ d₂ hbreaks => FeedsAll.not_complete hbreaks⟩
  · exact hfed.isLongest.2
  · intro b d'
    refine ⟨fun complete h => ⟨h.isLongest hfed.isLongest.1, h.matched_of_ok.2⟩, fun cause h => ?_⟩
    exact h.matched_of_error

/-- In a stuffed line that begins with a dot and a CR, the next CR breaks a match of four bytes.  The
CRLF is written, the dot is dropped, and the CR that was fed before is fed again. -/
theorem calls_end_within_delimiter_stuffed :
    let d : Decoder := { kind := some .message, matched := 4, phantom := 2 }
    let d' : Decoder := { kind := some .message, matched := 1, store := { held := #[cr] } }
    FedSince {} .message d (crlf ++ [dot] ++ [cr]) ∧
      (∃! w : Decoder × Answer, Feeds {} .message d cr w.1 w.2) ∧
      Feeds {} .message d cr d' (.ok false) ∧
      IsLongest .message (crlf ++ [dot] ++ [cr] ++ [cr]) d'.matched := by
  intro d d'
  have hstart : FedSince {} .message (start .message {}) crlf := .start {}
  have hdot := hstart.fed (.continued rfl)
  have hfed : FedSince {} .message d (crlf ++ [dot] ++ [cr]) := hdot.fed (.continued rfl)
  obtain ⟨-, hreturns, hlongest⟩ := calls_end_within_delimiter {} .message
  have hcr : Feeds {} .message d cr d' (.ok false) := (feeds_iff (by decide)).2 rfl
  exact ⟨hfed, (hreturns d cr (by decide)).1, hcr, ((hlongest d _ hfed).2 cr d').1 false hcr |>.1⟩

/-- A CR behind a CR begins a match, but it leaves none if the first of the two cannot be written. -/
theorem failed_call_forgets :
    let settings : Settings := { spillThreshold := 2, spillDirectory := .missing }
    let fed : Bytes := [97, 98, cr]
    ∃ d d' : Decoder,
      FeedsAll settings .message (start .message {}) fed d (.ok false) ∧
        Feeds settings .message d cr d' (.error noSpillFile) ∧
        IsLongest .message (crlf ++ fed ++ [cr]) 1 ∧
        ¬ IsLongest .message (crlf ++ fed ++ [cr]) d'.matched := by
  intro settings fed
  let d₁ : Decoder := { kind := some .message, store := { held := #[97] } }
  let d₂ : Decoder := { kind := some .message, store := { held := #[97, 98] } }
  let d : Decoder := { kind := some .message, matched := 1, store := { held := #[97, 98] } }
  let d' : Decoder := { kind := some .message, store := { held := #[97, 98, cr] } }
  have hfirst : Feeds settings .message (start .message {}) 97 d₁ (.ok false) :=
    (feeds_iff (by decide)).2 rfl
  have hsecond : Feeds settings .message d₁ 98 d₂ (.ok false) := (feeds_iff (by decide)).2 rfl
  have hthird : Feeds settings .message d₂ cr d (.ok false) := .continued rfl
  have hfourth : Feeds settings .message d cr d' (.error noSpillFile) :=
    (feeds_iff (by decide)).2 rfl
  have hfed : FedSince settings .message d (crlf ++ [97] ++ [98] ++ [cr]) :=
    (((FedSince.start {}).fed hfirst).fed hsecond).fed hthird
  refine ⟨d, d', .more hfirst (.more hsecond (.more hthird .nil)), hfourth, ?_, fun h => ?_⟩
  · exact hfed.isLongest.1.concat (by decide) cr
  · exact absurd (h.longest [cr] (by decide) (by decide)) (by decide)

end Decoder

end SmtpReceiver.Framing
