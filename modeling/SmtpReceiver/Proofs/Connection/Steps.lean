import SmtpReceiver.Proofs.Connection.Upgrade

/-!
# What a step leaves of a run

A run looks at frames only when it reads.  Whatever else happens to it, it *rests*.
Its place in the input, its calls and the progress of its session stay, and only
what was written, the phase and the transport may change.

A frame that it takes has it answer, and then it goes on or is closed.  What was
read behind the frame stays, unless the frame asked for TLS.
-/

namespace SmtpReceiver

open Auth (Authenticator)
open Framing (Frame)

variable {α δ : Type}

namespace Run

/-- The run is over. -/
def IsClosed (r : Run α δ) : Prop := ∃ result, r.phase = .closed result

theorem not_closed_of_reading {r : Run α δ} {idle : Nat} (hphase : r.phase = .reading idle) :
    ¬ r.IsClosed := by
  rintro ⟨result, hclosed⟩
  rw [hphase] at hclosed
  cases hclosed

theorem not_closed_of_handshake {r : Run α δ} (hphase : r.phase = .handshake) : ¬ r.IsClosed := by
  rintro ⟨result, hclosed⟩
  rw [hphase] at hclosed
  cases hclosed

/-- The run has decoded nothing, and has answered nothing. -/
structure Rests (r r' : Run α δ) : Prop where
  table : r'.table = r.table
  decoder : r'.decoder = r.decoder
  buffer : r'.buffer = r.buffer
  calls : r'.calls = r.calls
  settings : r'.session.settings = r.session.settings
  progress : r'.session.progress = r.session.progress
  wantsTls : r'.session.wantsTls = r.session.wantsTls
  closed : r.IsClosed → r'.IsClosed

/-- The run has answered a frame, and goes on or is closed. -/
structure Answers (o : Outcome α δ) (r r' : Run α δ) : Prop where
  table : r'.table = r.table
  decoder : r.decoder = {} → r'.decoder = {}
  buffer : r'.buffer = r.buffer ∨ o.session.wantsTls = true ∧ r'.buffer = []
  calls : r'.calls = r.calls ++ o.calls
  progress : r'.session.progress = o.session.progress
  wantsTls : r'.IsClosed ∨ r'.session.wantsTls = false

/-! ## Steps without a frame -/

section Rests

variable {r r' r'' : Run α δ}

theorem Rests.refl (r : Run α δ) : Rests r r := ⟨rfl, rfl, rfl, rfl, rfl, rfl, rfl, id⟩

theorem Rests.trans (h : Rests r r') (h' : Rests r' r'') : Rests r r'' where
  table := h'.table.trans h.table
  decoder := h'.decoder.trans h.decoder
  buffer := h'.buffer.trans h.buffer
  calls := h'.calls.trans h.calls
  settings := h'.settings.trans h.settings
  progress := h'.progress.trans h.progress
  wantsTls := h'.wantsTls.trans h.wantsTls
  closed := h'.closed ∘ h.closed

theorem rests_wire (r : Run α δ) (wire : Wire) : Rests r { r with wire } :=
  ⟨rfl, rfl, rfl, rfl, rfl, rfl, rfl, id⟩

theorem rests_closed (r : Run α δ) (wire : Wire) (result : Except Failure Unit) :
    Rests r { r with wire, phase := .closed result } :=
  ⟨rfl, rfl, rfl, rfl, rfl, rfl, rfl, fun _ => ⟨result, rfl⟩⟩

theorem rests_fail (r : Run α δ) (failure : Failure) : Rests r (r.fail failure) := by
  unfold fail
  split
  next => exact r.rests_closed _ _
  next => exact r.rests_closed _ _

theorem rests_farewell (r : Run α δ) (reply : Reply) : Rests r (r.farewell reply) := by
  unfold farewell write
  generalize r.wire.write reply.wire = p
  obtain ⟨cause?, wire⟩ := p
  cases cause? with
  | some cause => exact r.rests_closed _ _
  | none => exact r.rests_closed _ _

theorem rests_settleQuit (r : Run α δ) : Rests r r.settleQuit := by
  unfold settleQuit
  split
  next => exact .refl r
  next => exact r.rests_closed _ _

theorem rests_elapse (r : Run α δ) (milliseconds : Nat) : Rests r (r.elapse milliseconds) := by
  unfold elapse
  split
  next idle hphase =>
    split
    next => exact r.rests_farewell _
    next =>
      refine ⟨rfl, rfl, rfl, rfl, rfl, rfl, rfl, ?_⟩
      rintro ⟨result, hclosed⟩
      rw [hphase] at hclosed
      cases hclosed
  next => exact .refl r

theorem rests_readFailed (r : Run α δ) (kind : IoKind) : Rests r (r.readFailed kind) := by
  unfold readFailed
  split
  next => exact r.rests_fail _
  next => exact r.rests_closed _ _
  next => exact .refl r

theorem rests_secured (hphase : r.phase = .handshake) : Rests r r.secured := by
  refine ⟨rfl, rfl, rfl, rfl, rfl, rfl, rfl, ?_⟩
  rintro ⟨result, hclosed⟩
  rw [hphase] at hclosed
  cases hclosed

theorem rests_endHandshake (r : Run α δ) (h : Handshake) : Rests r (r.endHandshake h) := by
  unfold endHandshake
  split
  next hphase =>
    generalize r.wire.write [] = p
    obtain ⟨cause?, wire⟩ := p
    cases cause? with
    | some cause => exact r.rests_closed _ _
    | none =>
        have hwire := r.rests_wire wire
        exact (hwire.trans (rests_secured hphase)).trans (rests_settleQuit _)
  next => exact r.rests_closed _ _
  next => exact .refl r

theorem rests_start (c : Connection α δ) (greetingError : Option IoKind) :
    Rests { session := c.session, table := c.table, hasTls := c.hasTls, wire := {} }
      (start c greetingError) := by
  simp only [start]
  split
  next => exact (rests_wire _ _).trans (rests_farewell _ _)
  next =>
    simp only [write]
    generalize Wire.write { fault := greetingError } _ = p
    obtain ⟨cause?, wire⟩ := p
    cases cause? with
    | some cause => exact rests_closed _ _ _
    | none => exact rests_wire _ wire

end Rests

/-! ## One frame -/

section Answers

variable {r r' : Run α δ} {o : Outcome α δ} {wire : Wire}

/-- A run that rests after the outcome has answered the frame. -/
theorem Rests.answers
    (h : Rests { r with session := o.session, wire, calls := r.calls ++ o.calls } r')
    (hwants : r'.IsClosed ∨ o.session.wantsTls = false) : Answers o r r' where
  table := h.table
  decoder := h.decoder.trans
  buffer := .inl h.buffer
  calls := h.calls
  progress := h.progress
  wantsTls := hwants.imp_right h.wantsTls.trans

/-- What was read is dropped before TLS starts. -/
theorem beginTls_answers (hwants : o.session.wantsTls = true) :
    Answers o r (beginTls { r with session := o.session, wire, calls := r.calls ++ o.calls }) := by
  simp only [beginTls]
  split
  next => exact ⟨rfl, id, .inl rfl, rfl, rfl, .inl ⟨_, rfl⟩⟩
  next =>
    split
    next => exact ⟨rfl, fun _ => rfl, .inr ⟨hwants, rfl⟩, rfl, rfl, .inl ⟨_, rfl⟩⟩
    next => exact ⟨rfl, fun _ => rfl, .inr ⟨hwants, rfl⟩, rfl, rfl, .inr rfl⟩

theorem afterReply_answers :
    Answers o r (afterReply { r with session := o.session, wire, calls := r.calls ++ o.calls }) := by
  unfold afterReply
  split
  next hwants => exact beginTls_answers hwants
  next hwants => exact (rests_settleQuit _).answers (.inr (Bool.eq_false_iff.2 hwants))

theorem takeFrame_answers [Authenticator α] (r : Run α δ) (frame : Frame) :
    Answers (r.table.dispatch frame r.session) r (r.takeFrame frame) := by
  unfold takeFrame
  generalize r.table.dispatch frame r.session = o
  dsimp only
  cases o.answer with
  | error failure => exact (rests_fail _ failure).answers (.inl (fail_closed _ failure))
  | ok reply =>
      simp only [write]
      generalize r.wire.write reply.wire = p
      obtain ⟨cause?, wire⟩ := p
      cases cause? with
      | some cause => exact (rests_closed _ _ _).answers (.inl ⟨_, rfl⟩)
      | none => exact afterReply_answers

end Answers

end Run

end SmtpReceiver
