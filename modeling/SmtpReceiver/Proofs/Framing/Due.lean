import SmtpReceiver.Proofs.Framing.Exact

/-!
# The kind of frame that is due

The caller of a decoder says which kind of frame is due, and the decoder looks at
it only when a frame begins.  So a caller that changes its mind within a frame
gets a frame of the wrong kind.

One that does not gets what is due (`IsDue.feedAll`).  The frame that ends leaves a
fresh decoder, and a fresh decoder reads it from its own bytes alone
(`decode_uses`).
-/

namespace SmtpReceiver.Framing

open Text (Bytes)

def Frame.kind : Frame → Kind
  | line _ => .line
  | message _ => .message

namespace Decoder

variable {settings : Settings} {expectMessage : Bool} {d : Decoder}

/-- If a frame is in progress, it is of the kind that is due. -/
def IsDue (expectMessage : Bool) (d : Decoder) : Prop :=
  ∀ k, d.kind = some k → k = due expectMessage

theorem due_eq_line : due expectMessage = .line ↔ expectMessage = false := by
  cases expectMessage <;> simp [due]

theorem due_eq_message : due expectMessage = .message ↔ expectMessage = true := by
  cases expectMessage <;> simp [due]

theorem isDue_fresh (expectMessage : Bool) : IsDue expectMessage {} := nofun

/-! ## One byte -/

theorem Finished.frame_kind {k : Kind} {d' : Decoder} {frame : Frame}
    (h : Finished settings d k (d', .ok frame)) : frame.kind = k := by
  cases h with
  | line | message => rfl

/-- What is known of a decoder and a result when a kind of frame is due. -/
structure Gives (expectMessage : Bool) (d : Decoder) (result : Except Failure (Option Frame)) :
    Prop where
  isDue : IsDue expectMessage d
  frame : ∀ frame, result = .ok (some frame) → frame.kind = due expectMessage ∧ d = {}

theorem gives_feedFrame (hk : d.kind = some (due expectMessage)) (b : UInt8) :
    Gives expectMessage (d.feedFrame settings (due expectMessage) b).1
      (d.feedFrame settings (due expectMessage) b).2 := by
  have hopen {d' : Decoder} {result : Except Failure (Option Frame)}
      (hkind : d'.kind = some (due expectMessage)) (hnot : ∀ frame, result ≠ .ok (some frame)) :
      Gives expectMessage d' result :=
    ⟨fun k hk => Option.some.inj (hk.symm.trans hkind), fun frame h => absurd h (hnot frame)⟩
  have hkind : (emit settings (due expectMessage) (settle (due expectMessage) d.matched b).released
      { d with matched := 0 }).2.kind = some (due expectMessage) := (kind_emit settings _ _ _).trans hk
  simp only [feedFrame]
  generalize emit settings (due expectMessage) _ { d with matched := 0 } = r at hkind
  obtain ⟨cause?, d'⟩ := r
  cases cause? with
  | some cause => exact hopen hkind fun frame h => by cases h
  | none =>
      dsimp only
      split
      next =>
        generalize ({ d' with matched := _ } : Decoder) = d₁
        have hfinished := finish_finished settings (due expectMessage) d₁
        generalize d₁.finish settings (due expectMessage) = r at hfinished
        obtain ⟨d₂, result⟩ := r
        refine ⟨fun k hk => ?_, fun frame h => ?_⟩
        · rw [hfinished.kind_eq_none] at hk
          cases hk
        · cases result with
          | error failure => cases h
          | ok frame' =>
              cases h
              exact ⟨hfinished.frame_kind, hfinished.eq_fresh⟩
      next => exact hopen hkind fun frame h => by cases h

theorem IsDue.feed (h : IsDue expectMessage d) (b : UInt8) :
    Gives expectMessage (d.feed settings expectMessage b).1
      (d.feed settings expectMessage b).2 := by
  unfold Decoder.feed
  split
  next k hk =>
    obtain rfl := h k hk
    exact gives_feedFrame hk b
  next =>
    refine gives_feedFrame ?_ b
    cases expectMessage with
    | true => rfl
    | false => rfl

/-! ## Many bytes -/

/-- As long as the caller asks for the same kind of frame, the decoder gives and holds no other. -/
theorem IsDue.feedAll : ∀ {src : Bytes} {d : Decoder}, IsDue expectMessage d →
    Gives expectMessage (Decoder.feedAll settings expectMessage src d).decoder
      (Decoder.feedAll settings expectMessage src d).result
  | [], d, h => ⟨h, nofun⟩
  | b :: src, d, h => by
      have hfeed : Gives expectMessage (d.feed settings expectMessage b).1
          (d.feed settings expectMessage b).2 := h.feed b
      rw [feedAll_cons]
      generalize d.feed settings expectMessage b = r at hfeed
      obtain ⟨d', result⟩ := r
      cases result with
      | error failure => exact hfeed
      | ok frame? =>
          cases frame? with
          | none => exact IsDue.feedAll hfeed.isDue
          | some frame => exact hfeed

theorem IsDue.decode (h : IsDue expectMessage d) (src : Bytes) :
    Gives expectMessage (d.decode settings expectMessage src).decoder
      (d.decode settings expectMessage src).result := by
  rw [decode_decoder, decode_result]
  exact h.feedAll

/-- The bytes that a call of the decoder uses up. -/
def uses (settings : Settings) (d : Decoder) (expectMessage : Bool) (src : Bytes) : Bytes :=
  src.take (src.length - (d.decode settings expectMessage src).rest.length)

theorem rest_feedAll_suffix : ∀ (src : Bytes) (d : Decoder),
    (feedAll settings expectMessage src d).rest <:+ src
  | [], d => List.suffix_refl _
  | b :: src, d => by
      rw [feedAll_cons]
      split
      next d' hf => exact (rest_feedAll_suffix src d').trans (List.suffix_cons b src)
      next d' result hne hf => exact List.suffix_cons b src

theorem uses_append (d : Decoder) (src : Bytes) :
    d.uses settings expectMessage src ++ (d.decode settings expectMessage src).rest = src := by
  refine List.suffix_iff_eq_append.1 ?_
  simp only [decode]
  split
  next =>
    split
    next => exact List.suffix_refl src
    next => exact rest_feedAll_suffix src d
  next => exact rest_feedAll_suffix src d

theorem feedAll_of_append {rest : Bytes} {frame : Frame} : ∀ {used : Bytes} {d : Decoder},
    (feedAll settings expectMessage (used ++ rest) d).result = .ok (some frame) →
      (feedAll settings expectMessage (used ++ rest) d).rest = rest →
        feedAll settings expectMessage used d
          = ⟨(feedAll settings expectMessage (used ++ rest) d).decoder, [], .ok (some frame)⟩
  | [], d, hresult, hrest => by
      have hlt := length_rest_feedAll_lt hresult
      rw [hrest] at hlt
      exact absurd hlt (Nat.lt_irrefl _)
  | b :: used, d, hresult, hrest => by
      rw [List.cons_append, feedAll_cons] at hresult hrest ⊢
      rw [feedAll_cons]
      generalize d.feed settings expectMessage b = r at hresult hrest ⊢
      obtain ⟨d', result⟩ := r
      cases result with
      | error failure => cases hresult
      | ok frame? =>
          cases frame? with
          | none => exact feedAll_of_append hresult hrest
          | some frame' =>
              have hnil : used = [] := by simpa using hrest
              rw [hnil]
              exact congrArg (Decoded.mk d' []) hresult

/-- A frame is read from the bytes that the call uses up, and nothing is left of it. -/
theorem decode_uses (h : IsDue expectMessage d) {src : Bytes} {frame : Frame}
    (hresult : (d.decode settings expectMessage src).result = .ok (some frame)) :
    d.decode settings expectMessage (d.uses settings expectMessage src)
      = ⟨{}, [], .ok (some frame)⟩ := by
  have happend : d.uses settings expectMessage src ++ (d.decode settings expectMessage src).rest
      = src := uses_append d src
  obtain ⟨-, hfresh⟩ := (h.decode src).frame frame hresult
  generalize d.uses settings expectMessage src = used at happend ⊢
  rw [decode_decoder] at hfresh
  rw [decode_result] at hresult
  rw [decode_of_ok hresult] at happend
  have hused := feedAll_of_append (happend.symm ▸ hresult) (by rw [happend])
  rw [happend, hfresh] at hused
  rw [decode_of_ok (by rw [hused]), hused]

end Decoder

end SmtpReceiver.Framing
