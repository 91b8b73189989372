import SmtpReceiver.Proofs.Connection.Recording
import SmtpReceiver.Proofs.Framing.Isolation

/-!
# What a run does

A run answers frames.  Between them there is little that can happen to it, and each of
these things is a `Move`.  A part of the transcript begins, time passes, bytes are read
and decoded, something fails, or TLS starts.

A statement about a run and the frames it has answered is kept by a run if it is kept by
every move and by every frame (`Invariant`).  Then it is true at every moment of a recording
(`Invariant.recorded`).
-/

namespace SmtpReceiver

open Auth (Authenticator)
open Framing (Decoder Frame)
open Text (Bytes)

variable {α δ : Type}

namespace Run

/-- What becomes of a run while it answers no frame.  The errors of reading and writing are among
these steps of the client. -/
inductive Move (steps : List ClientStep) (r : Run α δ) : Run α δ → Prop where
  | stay : Move steps r r
  | turn : Move steps r { r with wire := r.wire.turn }
  | wait {idle : Nat} (idle' : Nat) : r.phase = .reading idle →
    Move steps r { r with phase := .reading idle' }
  | tooIdle {idle : Nat} : r.phase = .reading idle → Move steps r (r.farewell tooIdle)
  | readError {idle : Nat} (kind : IoKind) : r.phase = .reading idle → .readError kind ∈ steps →
    Move steps r (r.fail (.io ⟨kind, kind.name⟩))
  | writeError (kind : IoKind) : .writeError kind ∈ steps →
    Move steps r { r with wire := { r.wire with fault := some kind } }
  | read {idle : Nat} (bs : Bytes) : r.phase = .reading idle →
    Move steps r { r with phase := .reading 0, buffer := r.buffer ++ bs }
  | decode {idle : Nat} : r.phase = .reading idle → Move steps r r.afterDecoding
  | badFrame {idle : Nat} {failure : Failure} : r.phase = .reading idle → Decoder.Fails failure →
    Move steps r (r.fail failure)
  /-- The client does not start TLS. -/
  | noTls (cause : IoFailure) : r.phase = .handshake → Move steps r (r.close (.error (.io cause)))
  /-- The receiver cannot start TLS. -/
  | lostTls {cause : IoFailure} {wire : Wire} : r.phase = .handshake →
    r.wire.write [] = (some cause, wire) →
    Move steps r (close { r with wire } (.error (.io cause)))
  | startTls {wire : Wire} : r.phase = .handshake → r.wire.write [] = (none, wire) →
    Move steps r (settleQuit (secured { r with wire }))

/-- A reply is written, or the run is closed for a write that has failed. -/
theorem afterWrite_cases {P : Run α δ → Prop} (r : Run α δ) (reply : Reply) {f : Run α δ → Run α δ}
    (hlost : ∀ cause wire, r.wire.write reply.wire = (some cause, wire) →
      P (writeFailed { r with wire } cause))
    (hwritten : ∀ wire, r.wire.write reply.wire = (none, wire) → P (f { r with wire })) :
    P (match r.write reply with
      | (some cause, r) => r.writeFailed cause
      | (none, r) => f r) := by
  simp only [write]
  cases hwrite : r.wire.write reply.wire with
  | mk cause? wire =>
      cases cause? with
      | some cause => exact hlost cause wire hwrite
      | none => exact hwritten wire hwrite

/-- Turning to TLS takes back the wish for it, and the client has to start TLS next, or the run is
closed.  Nothing is written. -/
theorem beginTls_eq (r : Run α δ) : ∃ decoder buffer phase,
    r.beginTls = { r with
      session := { r.session with wantsTls := false }, decoder, buffer, phase } ∧
    (phase = .handshake ∨ ∃ detail, phase = .closed (.error (.protocol detail))) := by
  unfold beginTls
  dsimp only
  split
  next => exact ⟨_, _, _, rfl, .inr ⟨_, rfl⟩⟩
  next =>
    split
    next => exact ⟨_, _, _, rfl, .inr ⟨_, rfl⟩⟩
    next => exact ⟨_, _, _, rfl, .inl rfl⟩

variable {steps : List ClientStep}

theorem move_elapse (r : Run α δ) (milliseconds : Nat) : Move steps r (r.elapse milliseconds) := by
  unfold elapse
  split
  next idle hphase =>
    split
    next => exact .tooIdle hphase
    next => exact .wait _ hphase
  next => exact .stay

theorem move_readFailed (r : Run α δ) {kind : IoKind} (h : .readError kind ∈ steps) :
    Move steps r (r.readFailed kind) := by
  unfold readFailed
  split
  next hphase => exact .readError kind hphase h
  next hphase => exact .noTls _ hphase
  next => exact .stay

theorem move_endHandshake (r : Run α δ) (h : Handshake) : Move steps r (r.endHandshake h) := by
  unfold endHandshake
  split
  next hphase =>
    cases hwrite : r.wire.write [] with
    | mk cause? wire =>
        cases cause? with
        | some cause => exact .lostTls hphase hwrite
        | none => exact .startTls hphase hwrite
  next hphase => exact .noTls _ hphase
  next => exact .stay

/-- A run that waits for TLS, or is closed, does not look at what it reads. -/
theorem move_takeRead [Authenticator α] (r : Run α δ) (bs : Bytes)
    (hphase : ∀ idle, r.phase ≠ .reading idle) : Move steps r (r.takeRead bs) := by
  unfold takeRead
  split
  next idle hreading => exact absurd hreading (hphase idle)
  next hphase => exact .noTls _ hphase
  next => exact .stay

end Run

namespace Recording

variable [Authenticator α]

/-- A statement about a run and the frames it has answered is kept whatever the run does. -/
structure Invariant (steps : List ClientStep) (Q : List (Entry α δ) → Run α δ → Prop) : Prop where
  move : ∀ {es r r'}, Q es r → Run.Move steps r r' → Q es r'
  frame : ∀ {es r idle} {e : Entry α δ}, Q es r → r.phase = .reading idle → e.before = r.session →
    e.outcome = r.table.dispatch e.frame r.session → Q (es ++ [e]) (r.takeFrame e.frame)

/-- A statement is true of the run with all frames it has answered, and was at every moment of the
recording with those answered by then. -/
structure Holds (Q : List (Entry α δ) → Run α δ → Prop) (c : Recording α δ) : Prop where
  now : Q c.entries c.run
  moments : ∀ r ∈ c.moments, ∃ es, es <+: c.entries ∧ Q es r

namespace Invariant

variable {steps : List ClientStep} {Q : List (Entry α δ) → Run α δ → Prop} {c : Recording α δ}

omit [Authenticator α] in
theorem holds_become (h : c.Holds Q) {read opened : Bytes} {es : List (Entry α δ)} {r : Run α δ}
    (hentries : c.entries <+: es) (hr : Q es r) :
    Holds Q { run := r, read, entries := es, opened, moments := c.moments ++ [r] } where
  now := hr
  moments := by
    refine List.forall_mem_append.2 ⟨fun r' hr' => ?_, List.forall_mem_singleton.2 ⟨es, ?_, hr⟩⟩
    · obtain ⟨es', hes', hQ⟩ := h.moments r' hr'
      exact ⟨es', hes'.trans hentries, hQ⟩
    · exact List.prefix_refl es

theorem become (hQ : Invariant steps Q) (h : c.Holds Q) {r : Run α δ}
    (hmove : Run.Move steps c.run r) : (c.become r).Holds Q :=
  holds_become h (List.prefix_refl _) (hQ.move h.now hmove)

theorem answerFrames (hQ : Invariant steps Q) (h : c.Holds Q) : c.answerFrames.Holds Q := by
  refine answerFrames_keeps (P := Holds Q) ?none ?frame ?fail h
  case none =>
    intro c idle hreading _ h
    exact holds_become h (List.prefix_refl _) (hQ.move h.now (.decode hreading))
  case frame =>
    intro c idle frame hreading _ h
    have hdecoded := hQ.move h.now (.decode hreading)
    exact holds_become h (List.prefix_append _ _)
      (hQ.frame (e := c.entry frame) hdecoded hreading rfl rfl)
  case fail =>
    intro c idle failure hreading hresult h
    have hdecoded := hQ.move h.now (.decode hreading)
    have hfails := Decoder.fails_decode hresult
    exact holds_become h (List.prefix_refl _) (hQ.move hdecoded (.badFrame hreading hfails))

theorem takeRead (hQ : Invariant steps Q) (h : c.Holds Q) (bs : Bytes) :
    (c.takeRead bs).Holds Q := by
  unfold Recording.takeRead
  split
  next idle hreading =>
    exact hQ.answerFrames
      (holds_become h (List.prefix_refl _) (hQ.move h.now (.read bs hreading)))
  next hne => exact hQ.become h (c.run.move_takeRead bs hne)

theorem takeReads (hQ : Invariant steps Q) (reads : List Bytes) (h : c.Holds Q) :
    (reads.foldl Recording.takeRead c).Holds Q := by
  induction reads generalizing c with
  | nil => exact h
  | cons bs reads ih => exact ih (hQ.takeRead h bs)

theorem takeStep (hQ : Invariant steps Q) (h : c.Holds Q) {step : ClientStep}
    (hstep : step ∈ steps) : (c.takeStep step).Holds Q := by
  have hturned := hQ.move h.now .turn
  cases step with
  | send bs => exact hQ.takeReads _ (hQ.become h .turn)
  | wait milliseconds =>
      exact holds_become h (List.prefix_refl _) (hQ.move hturned (Run.move_elapse _ milliseconds))
  | readError kind =>
      exact holds_become h (List.prefix_refl _) (hQ.move hturned (Run.move_readFailed _ hstep))
  | writeError kind =>
      exact holds_become h (List.prefix_refl _) (hQ.move hturned (.writeError kind hstep))
  | startTls handshake =>
      have hended := hQ.move hturned (Run.move_endHandshake _ handshake)
      exact holds_become h (List.prefix_refl _) hended

theorem through (hQ : Invariant steps Q) {more : List ClientStep}
    (hmore : ∀ step ∈ more, step ∈ steps) (h : c.Holds Q) : (through more c).Holds Q := by
  induction more generalizing c with
  | nil => exact h
  | cons step more ih =>
      obtain ⟨hstep, hmore⟩ := List.forall_mem_cons.1 hmore
      rw [Recording.through]
      split
      next => exact h
      next => exact ih hmore (hQ.takeStep h hstep)

/-- What is true at the start and kept is true from then on, at each moment. -/
theorem started (hQ : Invariant steps Q) {r : Run α δ} (hstart : Q [] r) :
    (Recording.through steps { run := r }).Holds Q := by
  refine hQ.through (fun _ h => h) ⟨hstart, List.forall_mem_singleton.2 ?_⟩
  exact ⟨[], List.nil_prefix, hstart⟩

theorem recorded {client : Client} (hQ : Invariant client.steps Q) (c : Connection α δ)
    (hstart : Q [] (Run.start c client.greetingError)) : (c.recorded client).Holds Q :=
  hQ.started hstart

end Invariant

end Recording

end SmtpReceiver
