import SmtpReceiver.Proofs.Connection.Steps
import SmtpReceiver.Proofs.Framing.Due

/-!
# A run and what happened in it

A run forgets the bytes it has decoded and the frames it has answered.  A
`Recording` is a run with what it forgets.  There is an entry for every frame that
was answered, with the bytes it was read from, and there are the bytes that were
read, the bytes of the frame in progress, and the run at every moment.

A recording takes the steps of the client as a run does, and never looks at what
it keeps.  So its run is the run (`run_through`), and what it has read is what the
client has sent (`hasRead_through`).
-/

namespace SmtpReceiver

open Auth (Authenticator)
open Framing (Decoder Frame)
open Text (Bytes)

variable {α δ : Type}

/-- A frame that was answered, and the bytes it was read from. -/
structure Entry (α δ : Type) extends Event α δ where
  /-- The bytes of the frame, with those that ended it. -/
  used : Bytes
  /-- The bytes behind the frame that were dropped. -/
  dropped : Bytes

/-- A run, and what happened in it. -/
structure Recording (α δ : Type) where
  run : Run α δ
  /-- The bytes that were read. -/
  read : Bytes := []
  /-- The frames that were answered, first to last. -/
  entries : List (Entry α δ) := []
  /-- The bytes that were decoded of the frame in progress. -/
  opened : Bytes := []
  /-- The run at every moment, the latest last. -/
  moments : List (Run α δ) := [run]

namespace Recording

/-- The recording when the run has become another one. -/
def become (c : Recording α δ) (r : Run α δ) : Recording α δ :=
  { c with run := r, moments := c.moments ++ [r] }

variable [Authenticator α]

/-- The bytes that the next call of the decoder uses up. -/
def uses (c : Recording α δ) : Bytes :=
  c.run.decoder.uses c.run.session.settings c.run.session.progress.expectsMessage c.run.buffer

/-- The run when the buffer was decoded and this frame was answered. -/
def answered (c : Recording α δ) (frame : Frame) : Run α δ := c.run.afterDecoding.takeFrame frame

/-- The entry for a frame that ends in the buffer. -/
def entry (c : Recording α δ) (frame : Frame) : Entry α δ :=
  let rest := c.run.decoded.rest
  { before := c.run.session
    frame
    outcome := c.run.table.dispatch frame c.run.session
    used := c.opened ++ c.uses
    dropped := rest.take (rest.length - (c.answered frame).buffer.length) }

/-- The recording when the buffer was decoded and no frame has ended. -/
def keepOpen (c : Recording α δ) (r : Run α δ) : Recording α δ :=
  { c with opened := c.opened ++ c.uses }.become r

/-- The recording when a frame has ended and was answered. -/
def record (c : Recording α δ) (frame : Frame) : Recording α δ :=
  { c with entries := c.entries ++ [c.entry frame], opened := [] }.become (c.answered frame)

/-- Decodes what was read, and answers the frames that end in it one after the other. -/
def answerFrames (c : Recording α δ) : Recording α δ :=
  match c.run.phase with
  | .reading _ =>
    match _h : c.run.decoded.result with
    | .ok none => c.keepOpen c.run.afterDecoding
    | .ok (some frame) => (c.record frame).answerFrames
    | .error failure => c.keepOpen (c.run.afterDecoding.fail failure)
  | _ => c
termination_by c.run.buffer.length
decreasing_by
  exact Nat.lt_of_le_of_lt (Run.length_buffer_takeFrame_le _ _) (Decoder.length_rest_decode_lt _h)

/-- Takes the bytes of one read. -/
def takeRead (c : Recording α δ) (bs : Bytes) : Recording α δ :=
  match c.run.phase with
  | .reading _ =>
    ({ c with read := c.read ++ bs }.become
      { c.run with phase := .reading 0, buffer := c.run.buffer ++ bs }).answerFrames
  | _ => c.become (c.run.takeRead bs)

def takeStep (c : Recording α δ) (step : ClientStep) : Recording α δ :=
  match step with
  | .send bs =>
    (readsOf c.run.session.settings.readSize bs).foldl takeRead
      (c.become { c.run with wire := c.run.wire.turn })
  | _ => c.become (c.run.takeStep step)

/-- The recording after steps of the client, of which no more are taken once the run is closed. -/
def through : List ClientStep → Recording α δ → Recording α δ
  | [], c => c
  | step :: steps, c =>
    match c.run.phase with
    | .closed _ => c
    | _ => through steps (c.takeStep step)

end Recording

/-- The recording of a connection after the steps of a client. -/
def Connection.recorded [Authenticator α] (c : Connection α δ) (client : Client) : Recording α δ :=
  Recording.through client.steps { run := Run.start c client.greetingError }

/-- When the client has taken its steps it sends nothing more. -/
theorem Run.snd_takeSteps [Authenticator α] (steps : List ClientStep) (r : Run α δ) :
    (takeSteps steps r).2 = (through steps r).endOfInput := by
  induction steps generalizing r with
  | nil => rfl
  | cons step steps ih =>
      simp only [takeSteps, through]
      cases hphase : r.phase with
      | reading idle => exact ih _
      | handshake => exact ih _
      | closed result => simp only [endOfInput, hphase]

theorem Run.fst_takeSteps_le [Authenticator α] (steps : List ClientStep) (r : Run α δ) :
    (takeSteps steps r).1 ≤ steps.length := by
  induction steps generalizing r with
  | nil => exact Nat.le_refl 0
  | cons step steps ih =>
      simp only [takeSteps]
      split
      next => exact Nat.le_refl _
      next => exact Nat.le_succ_of_le (ih _)

namespace Recording

variable [Authenticator α]

/-! ## One call of the decoder -/

section Answer

variable {c : Recording α δ} {idle : Nat}

theorem answerFrames_of_not_reading (h : ∀ idle, c.run.phase ≠ .reading idle) :
    c.answerFrames = c := by
  rw [answerFrames]
  split
  next idle hreading => exact absurd hreading (h idle)
  next => rfl

theorem answerFrames_of_reading (hreading : c.run.phase = .reading idle) :
    c.answerFrames
      = match c.run.decoded.result with
        | .ok none => c.keepOpen c.run.afterDecoding
        | .ok (some frame) => (c.record frame).answerFrames
        | .error failure => c.keepOpen (c.run.afterDecoding.fail failure) := by
  rw [answerFrames]
  split
  next =>
    split
    next hr => rw [hr]
    next frame hr => rw [hr]
    next failure hr => rw [hr]
  next hne => exact absurd hreading (hne idle)

/-- A frame that was decoded is answered before the others.  The induction is on the length of the
buffer. -/
theorem answerFrames_induction {P : Recording α δ → Recording α δ → Prop}
    (hstop : ∀ {c}, (∀ idle, c.run.phase ≠ .reading idle) → P c c)
    (hnone : ∀ {c idle}, c.run.phase = .reading idle → c.run.decoded.result = .ok none →
      P c (c.keepOpen c.run.afterDecoding))
    (hframe : ∀ {c idle frame}, c.run.phase = .reading idle →
      c.run.decoded.result = .ok (some frame) →
        P (c.record frame) (c.record frame).answerFrames → P c (c.record frame).answerFrames)
    (hfail : ∀ {c idle failure}, c.run.phase = .reading idle →
      c.run.decoded.result = .error failure →
        P c (c.keepOpen (c.run.afterDecoding.fail failure)))
    (c : Recording α δ) : P c c.answerFrames := by
  induction hn : c.run.buffer.length using Nat.strongRecOn generalizing c with
  | _ n ih =>
      by_cases hreading : ∃ idle, c.run.phase = .reading idle
      case neg =>
        rw [not_exists] at hreading
        rw [answerFrames_of_not_reading hreading]
        exact hstop hreading
      case pos =>
        obtain ⟨idle, hreading⟩ := hreading
        rw [answerFrames_of_reading hreading]
        cases hresult : c.run.decoded.result with
        | error failure => exact hfail hreading hresult
        | ok frame? =>
            cases frame? with
            | none => exact hnone hreading hresult
            | some frame =>
                have hlt : c.run.decoded.rest.length < n :=
                  hn ▸ Decoder.length_rest_decode_lt hresult
                have hle := Run.length_buffer_takeFrame_le c.run.afterDecoding frame
                exact hframe hreading hresult (ih _ (Nat.lt_of_le_of_lt hle hlt) _ rfl)

/-- What one call of the decoder keeps is kept by answering all frames. -/
theorem answerFrames_keeps {P : Recording α δ → Prop}
    (hnone : ∀ {c idle}, c.run.phase = .reading idle → c.run.decoded.result = .ok none → P c →
      P (c.keepOpen c.run.afterDecoding))
    (hframe : ∀ {c idle frame}, c.run.phase = .reading idle →
      c.run.decoded.result = .ok (some frame) → P c → P (c.record frame))
    (hfail : ∀ {c idle failure}, c.run.phase = .reading idle →
      c.run.decoded.result = .error failure → P c →
        P (c.keepOpen (c.run.afterDecoding.fail failure)))
    {c : Recording α δ} (h : P c) : P c.answerFrames := by
  refine answerFrames_induction (P := fun c out => P c → P out) ?_ ?_ ?_ ?_ c h
  · intro c _ h
    exact h
  · intro c idle hreading hresult h
    exact hnone hreading hresult h
  · intro c idle frame hreading hresult hrest h
    exact hrest (hframe hreading hresult h)
  · intro c idle failure hreading hresult h
    exact hfail hreading hresult h

end Answer

/-! ## The run of a recording -/

theorem run_answerFrames (c : Recording α δ) : c.answerFrames.run = c.run.answerFrames := by
  refine answerFrames_induction (P := fun c out => out.run = c.run.answerFrames) ?_ ?_ ?_ ?_ c
  · intro c hreading
    exact (Run.answerFrames_of_not_reading hreading).symm
  · intro c idle hreading hresult
    rw [Run.answerFrames_of_reading hreading, hresult]
    rfl
  · intro c idle frame hreading hresult hrest
    rw [hrest, Run.answerFrames_of_reading hreading, hresult]
    rfl
  · intro c idle failure hreading hresult
    rw [Run.answerFrames_of_reading hreading, hresult]
    rfl

theorem run_takeRead (c : Recording α δ) (bs : Bytes) : (c.takeRead bs).run = c.run.takeRead bs := by
  cases hphase : c.run.phase with
  | reading idle =>
      simp only [takeRead, hphase, run_answerFrames, Run.takeRead]
      rfl
  | handshake => simp only [takeRead, hphase, become]
  | closed result => simp only [takeRead, hphase, become]

theorem run_takeReads (reads : List Bytes) (c : Recording α δ) :
    (reads.foldl takeRead c).run = reads.foldl Run.takeRead c.run := by
  induction reads generalizing c with
  | nil => rfl
  | cons bs reads ih => rw [List.foldl_cons, ih, run_takeRead, List.foldl_cons]

theorem run_takeStep (c : Recording α δ) (step : ClientStep) :
    (c.takeStep step).run = c.run.takeStep step := by
  cases step with
  | send bs => exact run_takeReads _ _
  | wait | readError | writeError | startTls => rfl

theorem run_through (steps : List ClientStep) (c : Recording α δ) :
    (through steps c).run = Run.through steps c.run := by
  induction steps generalizing c with
  | nil => rfl
  | cons step steps ih =>
      have hnext := (ih (c.takeStep step)).trans (congrArg _ (run_takeStep c step))
      simp only [through, Run.through]
      cases hphase : c.run.phase with
      | reading idle => exact hnext
      | handshake => exact hnext
      | closed result => rfl

/-- Steps that are not taken may be left out. -/
theorem through_take (steps : List ClientStep) (c : Recording α δ) :
    through (steps.take (steps.length - (Run.takeSteps steps c.run).1)) c = through steps c := by
  induction steps generalizing c with
  | nil => rfl
  | cons step steps ih =>
      have hnext : through ((step :: steps).take
          (steps.length + 1 - (Run.takeSteps steps (c.run.takeStep step)).1)) c
            = match c.run.phase with
              | .closed _ => c
              | _ => through steps (c.takeStep step) := by
        rw [Nat.succ_sub (Run.fst_takeSteps_le _ _), List.take_succ_cons, ← run_takeStep, through,
          ih (c.takeStep step)]
      simp only [Run.takeSteps, through]
      cases hphase : c.run.phase with
      | reading idle => simp only [hphase] at hnext; exact hnext
      | handshake => simp only [hphase] at hnext; exact hnext
      | closed result =>
          rw [List.length_cons, Nat.sub_self]
          rfl

/-! ## What was read -/

theorem read_answerFrames (c : Recording α δ) : c.answerFrames.read = c.read :=
  answerFrames_keeps (P := fun c' => c'.read = c.read) (fun _ _ h => h) (fun _ _ h => h)
    (fun _ _ h => h) rfl

/-- A recording has read what it was given.  If it was closed on the way, it has read the first
of it. -/
def HasRead (c : Recording α δ) (bs : Bytes) (c' : Recording α δ) : Prop :=
  ∃ unread, c.read ++ bs = c'.read ++ unread ∧ (unread = [] ∨ c'.run.IsClosed)

section HasRead

variable {c c' c'' : Recording α δ} {bs bs' : Bytes}

omit [Authenticator α] in
/-- One that is closed reads nothing more. -/
theorem HasRead.trans (h : c.HasRead bs c')
    (hclosed : c'.run.IsClosed → c''.run.IsClosed ∧ c''.read = c'.read)
    (h' : c'.HasRead bs' c'') : c.HasRead (bs ++ bs') c'' := by
  obtain ⟨unread, hbs, hunread⟩ := h
  obtain hnil | hstop := hunread
  · rw [hnil, List.append_nil] at hbs
    rw [HasRead, ← List.append_assoc, hbs]
    exact h'
  · obtain ⟨hstill, hread⟩ := hclosed hstop
    refine ⟨unread ++ bs', ?_, .inr hstill⟩
    rw [← List.append_assoc, hbs, hread, List.append_assoc]

theorem takeReads_of_closed (h : c.run.IsClosed) (reads : List Bytes) :
    (reads.foldl takeRead c).run.IsClosed ∧ (reads.foldl takeRead c).read = c.read := by
  induction reads generalizing c with
  | nil => exact ⟨h, rfl⟩
  | cons bs reads ih =>
      obtain ⟨result, hclosed⟩ := h
      have htake : c.takeRead bs = c.become c.run := by
        simp only [takeRead, Run.takeRead, hclosed]
      rw [List.foldl_cons, htake]
      exact ih ⟨result, hclosed⟩

theorem hasRead_takeRead (c : Recording α δ) (bs : Bytes) : c.HasRead bs (c.takeRead bs) := by
  cases hphase : c.run.phase with
  | reading idle =>
      refine ⟨[], ?_, .inl rfl⟩
      simp only [takeRead, hphase, read_answerFrames, become, List.append_nil]
  | handshake =>
      refine ⟨bs, ?_, .inr ?_⟩
      · simp only [takeRead, hphase, become]
      · simp only [takeRead, hphase, become, Run.takeRead]
        exact ⟨_, rfl⟩
  | closed result =>
      refine ⟨bs, ?_, .inr ?_⟩
      · simp only [takeRead, hphase, become]
      · simp only [takeRead, hphase, become, Run.takeRead]
        exact ⟨result, hphase⟩

theorem hasRead_takeReads (reads : List Bytes) (c : Recording α δ) :
    c.HasRead reads.flatten (reads.foldl takeRead c) := by
  induction reads generalizing c with
  | nil => exact ⟨[], rfl, .inl rfl⟩
  | cons bs reads ih =>
      rw [List.flatten_cons, List.foldl_cons]
      exact (hasRead_takeRead c bs).trans (takeReads_of_closed · reads) (ih _)

theorem hasRead_takeStep (c : Recording α δ) (step : ClientStep) :
    c.HasRead (sent [step]) (c.takeStep step) := by
  cases step with
  | send bs =>
      have h := hasRead_takeReads (readsOf c.run.session.settings.readSize bs)
        (c.become { c.run with wire := c.run.wire.turn })
      rw [readsOf, flatten_readsWithin] at h
      rw [sent, sent, List.append_nil]
      exact h
  | wait | readError | writeError | startTls => exact ⟨[], rfl, .inl rfl⟩

theorem through_of_closed (h : c.run.IsClosed) (steps : List ClientStep) : through steps c = c := by
  obtain ⟨result, hclosed⟩ := h
  cases steps with
  | nil => rfl
  | cons step steps => simp only [through, hclosed]

/-- What is read is what the client sends, and all of it unless the run is closed. -/
theorem hasRead_through (steps : List ClientStep) (c : Recording α δ) :
    c.HasRead (sent steps) (through steps c) := by
  induction steps generalizing c with
  | nil => exact ⟨[], rfl, .inl rfl⟩
  | cons step steps ih =>
      have hnext : c.HasRead (sent (step :: steps)) (through steps (c.takeStep step)) := by
        have hsent : sent (step :: steps) = sent [step] ++ sent steps := by
          cases step with
          | send bs => rw [sent, sent, sent, List.append_nil]
          | wait | readError | writeError | startTls => rfl
        rw [hsent]
        refine (hasRead_takeStep c step).trans ?_ (ih _)
        intro hclosed
        rw [through_of_closed hclosed]
        exact ⟨hclosed, rfl⟩
      cases hphase : c.run.phase with
      | reading idle =>
          simp only [through, hphase]
          exact hnext
      | handshake =>
          simp only [through, hphase]
          exact hnext
      | closed result =>
          rw [through_of_closed ⟨result, hphase⟩]
          exact ⟨_, rfl, .inr ⟨result, hphase⟩⟩

end HasRead

end Recording

/-! ## The report of a run -/

theorem Run.wire_endOfInput (r : Run α δ) : r.endOfInput.wire = r.wire := by
  unfold endOfInput
  split
  next => rfl
  next => rfl
  next => rfl

namespace Connection

variable [Authenticator α] (c : Connection α δ) (client : Client)

/-- A run becomes the one that is reported when the client sends nothing more. -/
theorem snd_takeSteps_start :
    (Run.takeSteps client.steps (Run.start c client.greetingError)).2
      = (c.recorded client).run.endOfInput := by
  rw [Run.snd_takeSteps, Connection.recorded, Recording.run_through]

theorem transcript_run :
    (c.run client).transcript = (c.recorded client).run.wire.transcript := by
  show (Run.takeSteps client.steps (Run.start c client.greetingError)).2.wire.transcript = _
  rw [snd_takeSteps_start, Run.wire_endOfInput]

theorem shut_run : (c.run client).shut = (c.recorded client).run.wire.shut := by
  show (Run.takeSteps client.steps (Run.start c client.greetingError)).2.wire.shut = _
  rw [snd_takeSteps_start, Run.wire_endOfInput]

/-- The result that is reported is the one with which the run is closed. -/
theorem phase_endOfInput :
    (c.recorded client).run.endOfInput.phase = .closed (c.run client).result := by
  have hclosed : (c.recorded client).run.endOfInput.IsClosed := by
    unfold Run.endOfInput
    split
    next => exact ⟨_, rfl⟩
    next => exact ⟨_, rfl⟩
    next result hphase => exact ⟨result, hphase⟩
  obtain ⟨result, hphase⟩ := hclosed
  have hresult : (c.run client).result = result := by
    simp only [run, snd_takeSteps_start, hphase]
  rw [hphase, hresult]

/-- The client with no more steps than the run takes. -/
def taken (c : Connection α δ) (client : Client) : Client :=
  { client with steps := client.steps.take (client.steps.length - (c.run client).unread) }

/-- What the client would have done later does not matter. -/
theorem recorded_taken (c : Connection α δ) (client : Client) :
    c.recorded (c.taken client) = c.recorded client :=
  Recording.through_take client.steps { run := Run.start c client.greetingError }

end Connection

end SmtpReceiver
