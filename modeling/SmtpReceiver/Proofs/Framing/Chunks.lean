import Mathlib.Data.List.Induction
import SmtpReceiver.Framing.Decoder

/-!
# Bytes in pieces

Bytes arrive in pieces that have nothing to do with frames.  A call of `decode`
that ends no frame leaves a decoder that goes on where the call stopped
(`decode_append_of_none`).  A call that ends one leaves what comes behind it
alone (`decode_append_of_some`).

A `Stream` is a decoder with the bytes it was given and the frames it made of
them.  It is given a piece, and decodes until no frame ends.  Which kind of frame
is due is any function of the frames so far.

The main result is `frames_of_pieces`.  The frames, the first failure and the
decoder do not depend on how the bytes were cut.
-/

namespace SmtpReceiver.Framing

open Text (Bytes)

namespace Decoder

variable {settings : Settings} {expectMessage : Bool}

/-! ## Many bytes -/

theorem feedAll_cons (b : UInt8) (bs : Bytes) (d : Decoder) :
    feedAll settings expectMessage (b :: bs) d
      = match d.feed settings expectMessage b with
        | (d', .ok none) => feedAll settings expectMessage bs d'
        | (d', result) => ⟨d', bs, result⟩ := rfl

/-- Feeding goes on where it stopped. -/
theorem feedAll_append_of_none (ys : Bytes) : ∀ {xs : Bytes} {d : Decoder},
    (feedAll settings expectMessage xs d).result = .ok none →
      feedAll settings expectMessage (xs ++ ys) d
        = feedAll settings expectMessage ys (feedAll settings expectMessage xs d).decoder
  | [], _, _ => rfl
  | b :: xs, d, h => by
      simp only [List.cons_append, feedAll_cons] at h ⊢
      split at h
      next d' hf => exact feedAll_append_of_none ys h
      next d' result hne hf => exact absurd h hne

/-- What comes behind the end of a frame or a failure is left. -/
theorem feedAll_append_of_stop (ys : Bytes) : ∀ {xs : Bytes} {d : Decoder},
    (feedAll settings expectMessage xs d).result ≠ .ok none →
      feedAll settings expectMessage (xs ++ ys) d
        = { feedAll settings expectMessage xs d with
            rest := (feedAll settings expectMessage xs d).rest ++ ys }
  | [], _, h => absurd rfl h
  | b :: xs, d, h => by
      simp only [List.cons_append, feedAll_cons] at h ⊢
      split at h
      next d' hf => exact feedAll_append_of_stop ys h
      next d' result hne hf => rfl

/-- Bytes that end no frame are all used up. -/
theorem rest_feedAll_of_none : ∀ {xs : Bytes} {d : Decoder},
    (feedAll settings expectMessage xs d).result = .ok none →
      (feedAll settings expectMessage xs d).rest = []
  | [], _, _ => rfl
  | b :: xs, d, h => by
      simp only [feedAll_cons] at h ⊢
      split at h
      next d' hf => exact rest_feedAll_of_none h
      next d' result hne hf => exact absurd h hne

theorem decode_decoder (d : Decoder) (src : Bytes) :
    (d.decode settings expectMessage src).decoder
      = (feedAll settings expectMessage src d).decoder := by
  simp only [decode]
  split
  next => split <;> rfl
  next => rfl

theorem decode_result (d : Decoder) (src : Bytes) :
    (d.decode settings expectMessage src).result
      = (feedAll settings expectMessage src d).result := by
  simp only [decode]
  split
  next failure h => split <;> simp [h]
  next => rfl

theorem decode_of_ok {d : Decoder} {src : Bytes} {frame? : Option Frame}
    (h : (feedAll settings expectMessage src d).result = .ok frame?) :
    d.decode settings expectMessage src = feedAll settings expectMessage src d := by
  simp only [decode, h]

/-- A call that ends no frame uses up its bytes. -/
theorem rest_decode_of_none {d : Decoder} {src : Bytes}
    (h : (d.decode settings expectMessage src).result = .ok none) :
    (d.decode settings expectMessage src).rest = [] := by
  rw [decode_result] at h
  rw [decode_of_ok h]
  exact rest_feedAll_of_none h

/-- A call that ends no frame can be joined with the next one. -/
theorem decode_append_of_none {d : Decoder} {xs : Bytes} (ys : Bytes)
    (h : (d.decode settings expectMessage xs).result = .ok none) :
    let next := (d.decode settings expectMessage xs).decoder.decode settings expectMessage ys
    let joined := d.decode settings expectMessage (xs ++ ys)
    joined.decoder = next.decoder ∧ joined.result = next.result ∧
      (∀ frame?, next.result = .ok frame? → joined.rest = next.rest) := by
  rw [decode_result] at h
  have happ := feedAll_append_of_none ys h
  simp only [decode_decoder, decode_result, happ, true_and]
  intro frame? hr
  rw [decode_of_ok (happ ▸ hr), decode_of_ok (d := (feedAll _ _ xs d).decoder) hr, happ]

/-- A call that ends a frame leaves what comes behind it. -/
theorem decode_append_of_some {d : Decoder} {xs : Bytes} {frame : Frame} (ys : Bytes)
    (h : (d.decode settings expectMessage xs).result = .ok (some frame)) :
    d.decode settings expectMessage (xs ++ ys)
      = { d.decode settings expectMessage xs with
          rest := (d.decode settings expectMessage xs).rest ++ ys } := by
  rw [decode_result] at h
  have happ := feedAll_append_of_stop ys (by rw [h]; simp)
  rw [decode_of_ok h, decode_of_ok (by rw [happ, h]), happ]

/-- A failure does not depend on what comes behind it. -/
theorem decode_append_of_error {d : Decoder} {xs : Bytes} {failure : Failure} (ys : Bytes)
    (h : (d.decode settings expectMessage xs).result = .error failure) :
    (d.decode settings expectMessage (xs ++ ys)).decoder
        = (d.decode settings expectMessage xs).decoder ∧
      (d.decode settings expectMessage (xs ++ ys)).result = .error failure := by
  rw [decode_result] at h
  have happ := feedAll_append_of_stop ys (by rw [h]; simp)
  simp only [decode_decoder, decode_result, happ, h, and_self]

end Decoder

/-! ## Streams -/

/-- A decoder, the bytes it has not used, and what it made of the others. -/
structure Stream where
  decoder : Decoder := {}
  /-- The bytes that were not used. -/
  src : Bytes := []
  /-- The frames, first to last. -/
  frames : List Frame := []
  /-- The failure that ended the stream, if one did. -/
  failure? : Option Failure := none

namespace Stream

variable (settings : Settings) (expects : List Frame → Bool)

/-- Decodes until no frame ends. -/
def drain (s : Stream) : Stream :=
  let r := s.decoder.decode settings (expects s.frames) s.src
  let s' := { s with decoder := r.decoder, src := r.rest }
  match _h : r.result with
  | .ok none => s'
  | .ok (some frame) => drain { s' with frames := s'.frames ++ [frame] }
  | .error failure => { s' with failure? := some failure }
termination_by s.src.length
decreasing_by exact Decoder.length_rest_decode_lt _h

/-- Takes a piece.  Nothing is taken after a failure. -/
def give (s : Stream) (piece : Bytes) : Stream :=
  match s.failure? with
  | none => drain settings expects { s with src := s.src ++ piece }
  | some _ => s

variable {settings expects}

theorem give_of_none {s : Stream} (h : s.failure? = none) (piece : Bytes) :
    give settings expects s piece = drain settings expects { s with src := s.src ++ piece } := by
  simp only [give, h]

theorem give_of_some {s : Stream} {failure : Failure} (h : s.failure? = some failure)
    (piece : Bytes) : give settings expects s piece = s := by
  simp only [give, h]

/-! ## One call -/

theorem drain_of_none {s : Stream}
    (h : (s.decoder.decode settings (expects s.frames) s.src).result = .ok none) :
    drain settings expects s
      = { s with
          decoder := (s.decoder.decode settings (expects s.frames) s.src).decoder
          src := [] } := by
  rw [drain]
  split
  next hr => rw [Decoder.rest_decode_of_none h]
  next frame hr => rw [h] at hr; cases hr
  next failure hr => rw [h] at hr; cases hr

theorem drain_of_some {s : Stream} {frame : Frame}
    (h : (s.decoder.decode settings (expects s.frames) s.src).result = .ok (some frame)) :
    drain settings expects s
      = drain settings expects
          { s with
            decoder := (s.decoder.decode settings (expects s.frames) s.src).decoder
            src := (s.decoder.decode settings (expects s.frames) s.src).rest
            frames := s.frames ++ [frame] } := by
  rw [drain]
  split
  next hr => rw [h] at hr; cases hr
  next frame' hr =>
    rw [h] at hr
    cases hr
    rfl
  next failure hr => rw [h] at hr; cases hr

/-- A frame that leaves a fresh decoder is passed over. -/
theorem drain_of_fresh {src rest : Bytes} {frames : List Frame} {frame : Frame}
    (h : let r := Decoder.decode settings {} (expects frames) src
      r.decoder = {} ∧ r.rest = rest ∧ r.result = .ok (some frame)) :
    drain settings expects { src, frames }
      = drain settings expects { src := rest, frames := frames ++ [frame] } := by
  obtain ⟨hdecoder, hrest, hresult⟩ := h
  refine (drain_of_some (s := { src, frames }) hresult).trans ?_
  dsimp only
  rw [hdecoder, hrest]

theorem drain_of_error {s : Stream} {failure : Failure}
    (h : (s.decoder.decode settings (expects s.frames) s.src).result = .error failure) :
    drain settings expects s
      = { s with
          decoder := (s.decoder.decode settings (expects s.frames) s.src).decoder
          src := (s.decoder.decode settings (expects s.frames) s.src).rest
          failure? := some failure } := by
  rw [drain]
  split
  next hr => rw [h] at hr; cases hr
  next frame hr => rw [h] at hr; cases hr
  next failure' hr =>
    rw [h] at hr
    cases hr
    rfl

/-- All bytes are used up unless there was a failure. -/
theorem src_drain (s : Stream) (h : s.failure? = none) :
    (drain settings expects s).failure? = none → (drain settings expects s).src = [] := by
  induction hn : s.src.length using Nat.strongRecOn generalizing s with
  | _ n ih =>
      intro hnone
      cases hr : (s.decoder.decode settings (expects s.frames) s.src).result with
      | error failure => rw [drain_of_error hr] at hnone; cases hnone
      | ok frame? =>
          cases frame? with
          | none => rw [drain_of_none hr]
          | some frame =>
              rw [drain_of_some hr] at hnone ⊢
              exact ih _ (hn ▸ Decoder.length_rest_decode_lt hr) _ h rfl hnone

theorem src_give (s : Stream) (piece : Bytes) :
    (give settings expects s piece).failure? = none →
      (give settings expects s piece).src = [] := by
  intro hnone
  cases hs : s.failure? with
  | none =>
      rw [give_of_none hs] at hnone ⊢
      exact src_drain _ hs hnone
  | some failure =>
      rw [give_of_some hs, hs] at hnone
      cases hnone

/-! ## Streams that went the same way -/

/-- Two streams made the same of their bytes.  Only a failure may have come at different places. -/
structure Agrees (s t : Stream) : Prop where
  decoder : s.decoder = t.decoder
  frames : s.frames = t.frames
  failure : s.failure? = t.failure?
  src : t.failure? = none → s.src = t.src

theorem Agrees.refl (s : Stream) : Agrees s s := ⟨rfl, rfl, rfl, fun _ => rfl⟩

theorem Agrees.eq {s t : Stream} (h : Agrees s t) (hnone : t.failure? = none) : s = t := by
  obtain ⟨hd, hf, he, hs⟩ := h
  cases s
  cases t
  simp_all

theorem Agrees.trans {s t u : Stream} (h : Agrees s t) (h' : Agrees t u) : Agrees s u where
  decoder := h.decoder.trans h'.decoder
  frames := h.frames.trans h'.frames
  failure := h.failure.trans h'.failure
  src hnone := (h.src (h'.failure.trans hnone)).trans (h'.src hnone)

/-- A stream that takes two pieces goes the way of one that takes them joined. -/
theorem give_drain (piece : Bytes) (s : Stream) (h : s.failure? = none) :
    Agrees (give settings expects (drain settings expects s) piece)
      (drain settings expects { s with src := s.src ++ piece }) := by
  induction hn : s.src.length using Nat.strongRecOn generalizing s with
  | _ n ih =>
      let j : Stream := { s with src := s.src ++ piece }
      cases hr : (s.decoder.decode settings (expects s.frames) s.src).result with
      | error failure =>
          have hjoined := Decoder.decode_append_of_error piece hr
          rw [drain_of_error hr, drain_of_error (s := j) hjoined.2, give_of_some rfl]
          exact ⟨hjoined.1.symm, rfl, rfl, fun hnone => by cases hnone⟩
      | ok frame? =>
          cases frame? with
          | some frame =>
              have hjoined := Decoder.decode_append_of_some piece hr
              rw [drain_of_some hr, drain_of_some (s := j) (by rw [hjoined, hr]), hjoined]
              exact ih _ (hn ▸ Decoder.length_rest_decode_lt hr) _ h rfl
          | none =>
              obtain ⟨hdecoder, hresult, hrest⟩ := Decoder.decode_append_of_none piece hr
              let t : Stream :=
                { s with
                  decoder := (s.decoder.decode settings (expects s.frames) s.src).decoder
                  src := piece }
              have hgive : give settings expects (drain settings expects s) piece
                  = drain settings expects t := by
                rw [drain_of_none hr]
                exact give_of_none (s := { t with src := [] }) h piece
              rw [hgive]
              cases hnext : (t.decoder.decode settings (expects t.frames) t.src).result with
              | error failure =>
                  rw [drain_of_error hnext, drain_of_error (s := j) (hresult.trans hnext)]
                  exact ⟨hdecoder.symm, rfl, rfl, fun hnone => by cases hnone⟩
              | ok frame? =>
                  have hrest' := hrest frame? hnext
                  cases frame? with
                  | none =>
                      rw [drain_of_none hnext, drain_of_none (s := j) (hresult.trans hnext)]
                      exact ⟨hdecoder.symm, rfl, rfl, fun _ => rfl⟩
                  | some frame =>
                      rw [drain_of_some hnext, drain_of_some (s := j) (hresult.trans hnext)]
                      simp only [j, hdecoder, hrest']
                      exact .refl _

/-- A piece taken by two streams that went the same way leaves them so. -/
theorem Agrees.give {s t : Stream} (h : Agrees s t) (piece : Bytes) :
    Agrees (give settings expects s piece) (give settings expects t piece) := by
  cases ht : t.failure? with
  | none => rw [h.eq ht]; exact .refl _
  | some failure =>
      rw [give_of_some ht, give_of_some (h.failure.trans ht)]
      exact h

theorem give_give {s : Stream} (h : s.failure? = none → s.src = []) (xs ys : Bytes) :
    Agrees (give settings expects (give settings expects s xs) ys)
      (give settings expects s (xs ++ ys)) := by
  cases hs : s.failure? with
  | some failure =>
      rw [give_of_some hs, give_of_some hs, give_of_some hs]
      exact .refl s
  | none =>
      rw [give_of_none hs, give_of_none hs, h hs]
      exact give_drain ys { s with src := xs } hs

theorem give_nil {s : Stream} (h : s.failure? = none → s.src = []) :
    give settings expects s [] = s := by
  obtain ⟨decoder, src, frames, failure?⟩ := s
  cases failure? with
  | some failure => rfl
  | none =>
      cases h rfl
      rw [give_of_none rfl]
      exact drain_of_none rfl

/-- A stream that takes pieces goes the way of one that takes all bytes at once. -/
theorem foldl_give (pieces : List Bytes) :
    ∀ {s : Stream}, (s.failure? = none → s.src = []) →
      Agrees (pieces.foldl (give settings expects) s) (give settings expects s pieces.flatten) := by
  induction pieces with
  | nil =>
      intro s h
      rw [List.flatten_nil, give_nil h]
      exact .refl s
  | cons piece pieces ih =>
      intro s h
      rw [List.foldl_cons, List.flatten_cons]
      exact (ih (src_give s piece)).trans (give_give h piece pieces.flatten)

/-- How bytes are cut into pieces does not show in the frames, in the first failure, or in the
decoder. -/
theorem frames_of_pieces (settings : Settings) (expects : List Frame → Bool) (d : Decoder)
    (pieces : List Bytes) :
    let cut := pieces.foldl (give settings expects) { decoder := d }
    let whole := give settings expects { decoder := d } pieces.flatten
    cut.frames = whole.frames ∧ cut.failure? = whole.failure? ∧
      (whole.failure? = none →
        cut.decoder = whole.decoder ∧ cut.src = [] ∧ whole.src = []) := by
  intro cut whole
  have h : Agrees cut whole := foldl_give pieces fun _ => rfl
  refine ⟨h.frames, h.failure, ?_⟩
  intro hnone
  have hsrc : whole.src = [] := src_give _ _ hnone
  exact ⟨h.decoder, (h.src hnone).trans hsrc, hsrc⟩

/-- A command line and a message come out of pieces that are cut within both, and within the CRLF of
both. -/
theorem frames_of_pieces_message :
    let expects (frames : List Frame) : Bool := frames.length == 1
    let pieces := ["DA", "TA\r", "\nh", "i\r\n.", "\r\nQU"].map Text.encode
    let cut := pieces.foldl (give {} expects) {}
    cut.frames = [.line "DATA", .message (.held (Text.encode "hi\r\n"))] ∧ cut.failure? = none ∧
      cut.src = [] ∧ cut.decoder.inFrame = true := by
  intro expects pieces cut
  obtain ⟨hframes, hfailure, hend⟩ := frames_of_pieces {} expects {} pieces
  have hline :
      let r := Decoder.decode {} {} false pieces.flatten
      r.decoder = {} ∧ r.rest = Text.encode "hi\r\n.\r\nQU" ∧
        r.result = .ok (some (.line "DATA")) := by decide +kernel
  have hmessage :
      let r := Decoder.decode {} {} true (Text.encode "hi\r\n.\r\nQU")
      r.decoder = {} ∧ r.rest = Text.encode "QU" ∧
        r.result = .ok (some (.message (.held (Text.encode "hi\r\n")))) := by decide +kernel
  have hopen :
      let r := Decoder.decode {} {} false (Text.encode "QU")
      r.decoder.inFrame = true ∧ r.result = .ok none := by decide +kernel
  generalize Text.encode "hi\r\n.\r\nQU" = afterLine at hline hmessage
  generalize Text.encode "QU" = afterMessage at hmessage hopen
  generalize Text.encode "hi\r\n" = content at hmessage ⊢
  have hwhole : give {} expects {} pieces.flatten
      = { decoder := (Decoder.decode {} {} false afterMessage).decoder
          frames := [.line "DATA", .message (.held content)] } := by
    generalize pieces.flatten = bytes at hline ⊢
    calc give {} expects {} bytes
      _ = drain {} expects { src := bytes } := give_of_none rfl bytes
      _ = drain {} expects { src := afterLine, frames := [.line "DATA"] } := drain_of_fresh hline
      _ = drain {} expects
            { src := afterMessage, frames := [.line "DATA", .message (.held content)] } :=
          drain_of_fresh hmessage
      _ = _ := drain_of_none hopen.2
  rw [hwhole] at hframes hfailure hend
  obtain ⟨hdecoder, hsrc, -⟩ := hend rfl
  exact ⟨hframes, hfailure, hsrc, (congrArg Decoder.inFrame hdecoder).trans hopen.1⟩

end Stream

end SmtpReceiver.Framing
