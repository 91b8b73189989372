import SmtpReceiver.Proofs.Connection.Refinement

/-!
# The past of a run

A run adds to what was written and to the calls that were made, and never looks
at either.  So it can be given a `Past`, with parts and calls before its own.  It
does then what it does without, and keeps the past as it is.

Each function on runs is `Blind` in this sense, and a whole run is
(`takeSteps_behind`).  A write goes to the part that was begun last, so there has
to be one that belongs to the run itself.
-/

namespace SmtpReceiver

open Auth (Authenticator)
open Framing (Decoder Frame)
open Text (Bytes)

/-- What was written, the latest part first, and the calls that were made. -/
structure Past where
  parts : List Bytes
  calls : List Call

namespace Wire

/-- The same transport, with parts written before. -/
def behind (parts : List Bytes) (w : Wire) : Wire := { w with parts := w.parts ++ parts }

variable {w : Wire}

theorem write_behind (hbegun : w.parts ≠ []) (parts : List Bytes) (bs : Bytes) :
    (w.behind parts).write bs = ((w.write bs).1, (w.write bs).2.behind parts) := by
  obtain ⟨own, fault, secure, shut⟩ := w
  cases fault with
  | some kind => rfl
  | none =>
      cases own with
      | nil => exact absurd rfl hbegun
      | cons p ps => rfl

theorem write_begun (hbegun : w.parts ≠ []) (bs : Bytes) : (w.write bs).2.parts ≠ [] := by
  obtain ⟨own, fault, secure, shut⟩ := w
  cases fault with
  | some kind => exact hbegun
  | none =>
      cases own with
      | nil => exact absurd rfl hbegun
      | cons p ps => exact List.cons_ne_nil _ _

end Wire

namespace Run

variable {α δ : Type}

def past (r : Run α δ) : Past := ⟨r.wire.parts, r.calls⟩

/-- The same run, with a past. -/
def behind (past : Past) (r : Run α δ) : Run α δ :=
  { r with wire := r.wire.behind past.parts, calls := past.calls ++ r.calls }

/-- The function keeps a past, and does not look at it. -/
structure Blind (f : Run α δ → Run α δ) : Prop where
  behind : ∀ (past : Past) {r}, r.wire.parts ≠ [] → f (r.behind past) = (f r).behind past
  begun : ∀ {r}, r.wire.parts ≠ [] → (f r).wire.parts ≠ []

theorem blind_self : Blind fun r : Run α δ => r := ⟨fun _ _ _ => rfl, fun h => h⟩

theorem Blind.comp {f g : Run α δ → Run α δ} (hg : Blind g) (hf : Blind f) :
    Blind fun r => g (f r) where
  behind past r hbegun := by
    rw [hf.behind past hbegun, hg.behind past (hf.begun hbegun)]
  begun hbegun := hg.begun (hf.begun hbegun)

/-- A choice is blind if it does not depend on the past. -/
theorem Blind.ite {f g : Run α δ → Run α δ} {p : Run α δ → Prop} [DecidablePred p]
    (hp : ∀ past r, p (r.behind past) ↔ p r) (hf : Blind f) (hg : Blind g) :
    Blind fun r => if p r then f r else g r where
  behind past r hbegun := by
    by_cases h : p r
    · rw [if_pos h, if_pos ((hp past r).2 h)]
      exact hf.behind past hbegun
    · rw [if_neg h, if_neg (h ∘ (hp past r).1)]
      exact hg.behind past hbegun
  begun {r} hbegun := by
    by_cases h : p r
    · rw [if_pos h]
      exact hf.begun hbegun
    · rw [if_neg h]
      exact hg.begun hbegun

/-- A phase does not depend on the past, so each may be looked at by itself. -/
theorem Blind.of_phase {f : Run α δ → Run α δ} (hf : ∀ phase, Blind fun r => f { r with phase }) :
    Blind f where
  behind past r hbegun := (hf r.phase).behind past hbegun
  begun {r} hbegun := (hf r.phase).begun hbegun

/-! ## Replies and the end -/

theorem write_behind {r : Run α δ} (hbegun : r.wire.parts ≠ []) (past : Past) (reply : Reply) :
    (r.behind past).write reply = ((r.write reply).1, (r.write reply).2.behind past) := by
  have hwire := Wire.write_behind hbegun past.parts reply.wire
  simp only [write, behind, hwire]

theorem close_blind (result : Except Failure Unit) :
    Blind fun r : Run α δ => r.close result :=
  ⟨fun _ _ _ => rfl, fun h => h⟩

theorem shut_blind (result : Except Failure Unit) : Blind fun r : Run α δ => r.shut result :=
  ⟨fun _ _ _ => rfl, fun h => h⟩

theorem writeFailed_blind (cause : IoFailure) : Blind fun r : Run α δ => r.writeFailed cause :=
  close_blind _

/-- What follows a write is blind if it is blind after a success. -/
theorem Blind.afterWrite {f : Run α δ → Run α δ} (hf : Blind f) (reply : Reply) :
    Blind fun r : Run α δ =>
      match r.write reply with
      | (some cause, r) => r.writeFailed cause
      | (none, r) => f r := by
  constructor
  · intro past r hbegun
    have hwritten : (r.write reply).2.wire.parts ≠ [] := Wire.write_begun hbegun _
    simp only [write_behind hbegun]
    generalize r.write reply = p at hwritten
    obtain ⟨cause?, r'⟩ := p
    cases cause? with
    | some cause => exact (writeFailed_blind cause).behind past hwritten
    | none => exact hf.behind past hwritten
  · intro r hbegun
    have hwritten : (r.write reply).2.wire.parts ≠ [] := Wire.write_begun hbegun _
    generalize r.write reply = p at hwritten
    obtain ⟨cause?, r'⟩ := p
    cases cause? with
    | some cause => exact (writeFailed_blind cause).begun hwritten
    | none => exact hf.begun hwritten

theorem farewell_blind (reply : Reply) : Blind fun r : Run α δ => r.farewell reply :=
  (shut_blind _).afterWrite reply

theorem fail_blind (failure : Failure) : Blind fun r : Run α δ => r.fail failure := by
  cases hgone : failure.isDisconnect with
  | true =>
      simp only [fail, hgone, if_true]
      exact close_blind _
  | false =>
      simp only [fail, hgone, Bool.false_eq_true, if_false]
      constructor
      · intro past r hbegun
        rw [write_behind hbegun]
        rfl
      · intro r hbegun
        exact Wire.write_begun hbegun _

/-! ## Frames -/

theorem settleQuit_blind : Blind (settleQuit (α := α) (δ := δ)) :=
  .ite (fun _ _ => Iff.rfl) blind_self (shut_blind _)

theorem beginTls_blind : Blind (beginTls (α := α) (δ := δ)) :=
  .ite (fun _ _ => Iff.rfl) ⟨fun _ _ _ => rfl, fun h => h⟩
    (.ite (fun _ _ => Iff.rfl) ⟨fun _ _ _ => rfl, fun h => h⟩ ⟨fun _ _ _ => rfl, fun h => h⟩)

theorem afterReply_blind : Blind (afterReply (α := α) (δ := δ)) :=
  .ite (fun _ _ => Iff.rfl) beginTls_blind settleQuit_blind

variable [Authenticator α]

theorem takeFrame_blind (frame : Frame) : Blind fun r : Run α δ => r.takeFrame frame := by
  constructor
  · intro past r hbegun
    have hcalls (o : Outcome α δ) :
        { r.behind past with session := o.session, calls := (r.behind past).calls ++ o.calls }
          = Run.behind past { r with session := o.session, calls := r.calls ++ o.calls } := by
      simp only [behind, List.append_assoc]
    simp only [takeFrame]
    rw [show (r.behind past).table.dispatch frame (r.behind past).session
      = r.table.dispatch frame r.session from rfl, hcalls]
    cases (r.table.dispatch frame r.session).answer with
    | error failure => exact (fail_blind failure).behind past hbegun
    | ok reply => exact (afterReply_blind.afterWrite reply).behind past hbegun
  · intro r hbegun
    simp only [takeFrame]
    cases (r.table.dispatch frame r.session).answer with
    | error failure => exact (fail_blind failure).begun hbegun
    | ok reply => exact (afterReply_blind.afterWrite reply).begun hbegun

theorem answerFrames_behind (past : Past) {r : Run α δ} (hbegun : r.wire.parts ≠ []) :
    (r.behind past).answerFrames = r.answerFrames.behind past ∧ r.answerFrames.wire.parts ≠ [] := by
  refine answerFrames_induction (P := fun r out => r.wire.parts ≠ [] →
    (r.behind past).answerFrames = out.behind past ∧ out.wire.parts ≠ []) ?_ ?_ ?_ ?_ r hbegun
  · intro r hreading hbegun
    exact ⟨answerFrames_of_not_reading hreading, hbegun⟩
  · intro r idle hreading hresult hbegun
    have hresult' : (r.behind past).decoded.result = .ok none := hresult
    rw [answerFrames_of_reading (r := r.behind past) hreading, hresult']
    exact ⟨rfl, hbegun⟩
  · intro r idle frame hreading hresult hrest hbegun
    have hresult' : (r.behind past).decoded.result = .ok (some frame) := hresult
    have hframe := takeFrame_blind (α := α) (δ := δ) frame
    rw [answerFrames_of_reading (r := r.behind past) hreading, hresult']
    obtain ⟨hbehind, hrest⟩ := hrest (hframe.begun (r := r.afterDecoding) hbegun)
    refine ⟨Eq.trans ?_ hbehind, hrest⟩
    exact congrArg answerFrames (hframe.behind past (r := r.afterDecoding) hbegun)
  · intro r idle failure hreading hresult hbegun
    have hresult' : (r.behind past).decoded.result = .error failure := hresult
    have hfail := fail_blind (α := α) (δ := δ) failure
    rw [answerFrames_of_reading (r := r.behind past) hreading, hresult']
    exact ⟨hfail.behind past (r := r.afterDecoding) hbegun,
      hfail.begun (r := r.afterDecoding) hbegun⟩

theorem answerFrames_blind : Blind (answerFrames (α := α) (δ := δ)) :=
  ⟨fun past _ h => (answerFrames_behind past h).1, fun h => (answerFrames_behind ⟨[], []⟩ h).2⟩

theorem takeRead_blind (bs : Bytes) : Blind fun r : Run α δ => r.takeRead bs := by
  refine .of_phase fun phase => ?_
  cases phase with
  | reading idle => exact answerFrames_blind.comp ⟨fun _ _ _ => rfl, fun h => h⟩
  | handshake => exact ⟨fun _ _ _ => rfl, fun h => h⟩
  | closed result => exact ⟨fun _ _ _ => rfl, fun h => h⟩

theorem takeReads_blind (reads : List Bytes) :
    Blind fun r : Run α δ => reads.foldl takeRead r := by
  induction reads with
  | nil => exact blind_self
  | cons bs reads ih => exact ih.comp (takeRead_blind bs)

/-! ## Steps of the client -/

omit [Authenticator α] in
theorem elapse_blind (milliseconds : Nat) : Blind fun r : Run α δ => r.elapse milliseconds := by
  refine .of_phase fun phase => ?_
  cases phase with
  | reading idle =>
      refine .ite (fun _ _ => Iff.rfl) ?_ ⟨fun _ _ _ => rfl, fun h => h⟩
      exact (farewell_blind tooIdle).comp ⟨fun _ _ _ => rfl, fun h => h⟩
  | handshake => exact ⟨fun _ _ _ => rfl, fun h => h⟩
  | closed result => exact ⟨fun _ _ _ => rfl, fun h => h⟩

omit [Authenticator α] in
theorem readFailed_blind (kind : IoKind) : Blind fun r : Run α δ => r.readFailed kind := by
  refine .of_phase fun phase => ?_
  cases phase with
  | reading idle => exact (fail_blind _).comp ⟨fun _ _ _ => rfl, fun h => h⟩
  | handshake => exact ⟨fun _ _ _ => rfl, fun h => h⟩
  | closed result => exact ⟨fun _ _ _ => rfl, fun h => h⟩

omit [Authenticator α] in
theorem endOfInput_blind : Blind (endOfInput (α := α) (δ := δ)) := by
  refine .of_phase fun phase => ?_
  cases phase with
  | reading idle => exact ⟨fun _ _ _ => rfl, fun h => h⟩
  | handshake => exact ⟨fun _ _ _ => rfl, fun h => h⟩
  | closed result => exact ⟨fun _ _ _ => rfl, fun h => h⟩

omit [Authenticator α] in
theorem endHandshake_blind (h : Handshake) : Blind fun r : Run α δ => r.endHandshake h := by
  refine .of_phase fun phase => ?_
  cases phase with
  | handshake =>
      cases h with
      | fails cause => exact ⟨fun _ _ _ => rfl, fun h => h⟩
      | proper =>
          have hsecured : Blind fun r : Run α δ => r.secured.settleQuit :=
            settleQuit_blind.comp ⟨fun _ _ _ => rfl, fun h => h⟩
          constructor
          · intro past r hbegun
            have hwritten := Wire.write_begun hbegun []
            simp only [endHandshake, behind, Wire.write_behind hbegun]
            generalize r.wire.write [] = p at hwritten
            obtain ⟨cause?, wire⟩ := p
            cases cause? with
            | some cause => rfl
            | none => exact hsecured.behind past (r := { r with wire }) hwritten
          · intro r hbegun
            have hwritten := Wire.write_begun hbegun []
            simp only [endHandshake]
            generalize r.wire.write [] = p at hwritten
            obtain ⟨cause?, wire⟩ := p
            cases cause? with
            | some cause => exact hwritten
            | none => exact hsecured.begun (r := { r with wire }) hwritten
  | reading idle => exact ⟨fun _ _ _ => rfl, fun h => h⟩
  | closed result => exact ⟨fun _ _ _ => rfl, fun h => h⟩

/-- A step begins a part of its own. -/
theorem takeStep_behind (past : Past) (r : Run α δ) (step : ClientStep) :
    (r.behind past).takeStep step = (r.takeStep step).behind past ∧
      (r.takeStep step).wire.parts ≠ [] := by
  have hbegun : ({ r with wire := r.wire.turn } : Run α δ).wire.parts ≠ [] := List.cons_ne_nil _ _
  have hblind : ∀ {f : Run α δ → Run α δ}, Blind f →
      f { r.behind past with wire := (r.behind past).wire.turn }
        = (f { r with wire := r.wire.turn }).behind past ∧
      (f { r with wire := r.wire.turn }).wire.parts ≠ [] :=
    fun hf => ⟨hf.behind past hbegun, hf.begun hbegun⟩
  cases step with
  | send bs => exact hblind (takeReads_blind (readsOf r.session.settings.readSize bs))
  | wait milliseconds => exact hblind (elapse_blind milliseconds)
  | readError kind => exact hblind (readFailed_blind kind)
  | writeError kind => exact ⟨rfl, hbegun⟩
  | startTls h => exact hblind (endHandshake_blind h)

/-- A run to which steps are given keeps its past, and does not look at it. -/
theorem takeSteps_behind (past : Past) (steps : List ClientStep) {r : Run α δ}
    (hbegun : r.wire.parts ≠ []) :
    takeSteps steps (r.behind past)
      = ((takeSteps steps r).1, (takeSteps steps r).2.behind past) := by
  induction steps generalizing r with
  | nil =>
      have hend := endOfInput_blind.behind past hbegun
      simp only [takeSteps, hend]
  | cons step steps ih =>
      obtain ⟨hstep, hnext⟩ := takeStep_behind past r step
      have hrest := ih hnext
      rw [← hstep] at hrest
      have hphase : (r.behind past).phase = r.phase := rfl
      simp only [takeSteps, hphase]
      cases r.phase with
      | reading idle => exact hrest
      | handshake => exact hrest
      | closed result => rfl

end Run

/-! ## What became of it -/

/-- What becomes of a run that is given steps. -/
def Run.report {α δ : Type} [Authenticator α] (steps : List ClientStep) (r : Run α δ) : Report :=
  let (unread, r) := takeSteps steps r
  { transcript := r.wire.transcript
    unread
    shut := r.wire.shut
    result := match r.phase with
      | .closed result => result
      | _ => .ok ()
    calls := r.calls }

/-- The same report, with a past. -/
def Report.behind (past : Past) (report : Report) : Report :=
  { report with
    transcript := past.parts.reverse ++ report.transcript
    calls := past.calls ++ report.calls }

theorem Run.report_behind {α δ : Type} [Authenticator α] (past : Past) (steps : List ClientStep)
    {r : Run α δ} (hbegun : r.wire.parts ≠ []) :
    (r.behind past).report steps = (r.report steps).behind past := by
  simp only [report, takeSteps_behind past steps hbegun]
  simp only [behind, Wire.behind, Wire.transcript, List.reverse_append, Report.behind]

end SmtpReceiver
