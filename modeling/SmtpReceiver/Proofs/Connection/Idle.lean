import SmtpReceiver.Proofs.Connection.Recording

/-!
# How long a client may be idle

The idle limit is one on single reads.  As long as no bytes arrive, the waits add up,
and the one that exceeds the limit closes the run with a farewell (`limited_of_silent`).
Bytes begin the wait anew, whether they complete a frame or not.

So the limit is one on the time since the last frame only if all bytes that arrive
complete a frame (`idle_limit_counts_from_bytes`).  A client that sends part of a line
every now and then stays as long as it likes.
-/

namespace SmtpReceiver

open Auth (Authenticator)
open Text (Bytes)

variable {α δ : Type}

/-- The milliseconds that pass in steps of the client. -/
def waited : List ClientStep → Nat
  | [] => 0
  | .wait milliseconds :: steps => milliseconds + waited steps
  | _ :: steps => waited steps

/-- No bytes arrive. -/
def Silent (steps : List ClientStep) : Prop := ∀ bs, .send bs ∈ steps → bs = []

/-! ## One step -/

namespace Run

/-- The run has ended for idleness, and the client is told so unless the write fails. -/
structure TimesOut (r r' : Run α δ) : Prop where
  closed : r'.IsClosed
  told : r.wire.fault = none →
    r'.wire.parts = tooIdle.wire :: r.wire.parts ∧ r'.wire.shut = true ∧ r'.phase = .closed (.ok ())

section Phase

variable {r : Run α δ} {idle : Nat}

theorem elapse_of_long {milliseconds : Nat} (hphase : r.phase = .reading idle)
    (hlong : r.session.settings.idleLimit < idle + milliseconds) :
    TimesOut r (Run.elapse { r with wire := r.wire.turn } milliseconds) := by
  have helapse : Run.elapse { r with wire := r.wire.turn } milliseconds
      = Run.farewell { r with wire := r.wire.turn } tooIdle := by
    simp only [elapse, hphase]
    exact if_pos hlong
  rw [helapse]
  refine ⟨farewell_closed _ _, fun hfault => ?_⟩
  simp only [farewell, write, Wire.write, Wire.turn, hfault]
  exact ⟨rfl, rfl, rfl⟩

theorem elapse_of_short {milliseconds : Nat} (hphase : r.phase = .reading idle)
    (hshort : idle + milliseconds ≤ r.session.settings.idleLimit) :
    r.elapse milliseconds = { r with phase := .reading (idle + milliseconds) } := by
  simp only [elapse, hphase]
  exact if_neg (Nat.not_lt.2 hshort)

/-- The wait has just begun, if the run waits for bytes at all. -/
def Fresh (r : Run α δ) : Prop := ∀ idle, r.phase = .reading idle → idle = 0

theorem fresh_of_closed (h : r.IsClosed) : r.Fresh :=
  fun _ hphase => absurd h (not_closed_of_reading hphase)

theorem fresh_beginTls (r : Run α δ) : r.beginTls.Fresh := by
  simp only [beginTls]
  split
  next => exact fresh_of_closed ⟨_, rfl⟩
  next =>
    split
    next => exact fresh_of_closed ⟨_, rfl⟩
    next =>
      intro idle hphase
      cases hphase

theorem fresh_afterReply (h : r.Fresh) : r.afterReply.Fresh := by
  unfold afterReply settleQuit
  split
  next => exact fresh_beginTls r
  next =>
    split
    next => exact h
    next => exact fresh_of_closed ⟨_, rfl⟩

variable [Authenticator α]

theorem fresh_takeFrame (h : r.Fresh) (frame : Framing.Frame) : (r.takeFrame frame).Fresh := by
  unfold takeFrame
  generalize r.table.dispatch frame r.session = o
  dsimp only
  cases o.answer with
  | error failure => exact fresh_of_closed (fail_closed _ failure)
  | ok reply =>
      simp only [write]
      generalize r.wire.write reply.wire = p
      obtain ⟨cause?, wire⟩ := p
      cases cause? with
      | some cause => exact fresh_of_closed ⟨_, rfl⟩
      | none => exact fresh_afterReply h

/-- The bytes of a read begin the wait anew. -/
theorem fresh_takeRead (r : Run α δ) (bs : Bytes) : (r.takeRead bs).Fresh := by
  unfold takeRead
  split
  next =>
    refine answerFrames_keeps (P := Fresh) (fun _ h => h) (fun frame _ h => fresh_takeFrame h _)
      (fun _ _ _ => fresh_of_closed (fail_closed _ _)) ?_
    exact fun _ hphase => (Phase.reading.inj hphase).symm
  next => exact fresh_of_closed ⟨_, rfl⟩
  next hphase => exact fresh_of_closed ⟨_, hphase⟩

theorem fresh_takeReads {reads : List Bytes} (h : reads ≠ []) (r : Run α δ) :
    (reads.foldl takeRead r).Fresh := by
  cases reads using List.reverseRecOn with
  | nil => exact absurd rfl h
  | append_singleton reads bs =>
      rw [List.foldl_append]
      exact fresh_takeRead _ bs

end Phase

end Run

/-! ## Recordings -/

namespace Recording

variable [Authenticator α] {c : Recording α δ} {idle : Nat}

theorem through_append (steps more : List ClientStep) (c : Recording α δ) :
    through (steps ++ more) c = through more (through steps c) := by
  induction steps generalizing c with
  | nil => rfl
  | cons step steps ih =>
      rw [List.cons_append, through, through]
      split
      next result hclosed => exact (through_of_closed ⟨result, hclosed⟩ more).symm
      next => exact ih _

theorem through_cons_of_reading (hphase : c.run.phase = .reading idle) (step : ClientStep)
    (steps : List ClientStep) : through (step :: steps) c = through steps (c.takeStep step) := by
  rw [through]
  split
  next hclosed => rw [hphase] at hclosed; cases hclosed
  next => rfl

/-- Frames that were answered stay answered. -/
theorem entries_prefix_answerFrames (c : Recording α δ) : c.entries <+: c.answerFrames.entries :=
  answerFrames_keeps (P := fun c' : Recording α δ => c.entries <+: c'.entries) (fun _ _ h => h)
    (fun _ _ h => h.trans (List.prefix_append _ _)) (fun _ _ h => h) (List.prefix_refl _)

theorem entries_prefix_takeRead (c : Recording α δ) (bs : Bytes) :
    c.entries <+: (c.takeRead bs).entries := by
  unfold takeRead
  split
  next =>
    exact entries_prefix_answerFrames ({ c with read := c.read ++ bs }.become
      { c.run with phase := .reading 0, buffer := c.run.buffer ++ bs })
  next => exact List.prefix_refl _

theorem entries_prefix_takeReads (reads : List Bytes) (c : Recording α δ) :
    c.entries <+: (reads.foldl takeRead c).entries := by
  induction reads generalizing c with
  | nil => exact List.prefix_refl _
  | cons bs reads ih => exact (entries_prefix_takeRead c bs).trans (ih _)

theorem entries_prefix_takeStep (c : Recording α δ) (step : ClientStep) :
    c.entries <+: (c.takeStep step).entries := by
  cases step with
  | send bs => exact entries_prefix_takeReads _ (c.become _)
  | wait | readError | writeError | startTls => exact List.prefix_refl _

theorem entries_prefix_through (steps : List ClientStep) (c : Recording α δ) :
    c.entries <+: (through steps c).entries := by
  induction steps generalizing c with
  | nil => exact List.prefix_refl _
  | cons step steps ih =>
      rw [through]
      split
      next => exact List.prefix_refl _
      next => exact (entries_prefix_takeStep c step).trans (ih _)

/-! ## Waiting -/

/-- A step without bytes closes the run, or adds to the wait. -/
theorem phase_of_silent {step : ClientStep} (hphase : c.run.phase = .reading idle)
    (hsilent : Silent [step]) :
    (c.takeStep step).run.IsClosed ∨
      (c.takeStep step).run.phase = .reading (idle + waited [step]) ∧
        (waited [step] = 0 ∨ idle + waited [step] ≤ c.run.session.settings.idleLimit) := by
  cases step with
  | send bs =>
      obtain rfl := hsilent bs List.mem_cons_self
      refine .inr ⟨?_, .inl rfl⟩
      simp only [takeStep, readsOf_eq_nil.2 rfl, List.foldl_nil]
      exact hphase
  | wait milliseconds =>
      by_cases hlong : c.run.session.settings.idleLimit < idle + milliseconds
      · exact .inl (Run.elapse_of_long hphase hlong).closed
      · have hshort := Run.elapse_of_short (r := { c.run with wire := c.run.wire.turn }) hphase
          (Nat.not_lt.1 hlong)
        refine .inr ⟨?_, .inr (Nat.not_lt.1 hlong)⟩
        show (Run.elapse _ milliseconds).phase = _
        rw [hshort]
        rfl
  | readError kind =>
      left
      show (Run.readFailed _ kind).IsClosed
      simp only [Run.readFailed, hphase]
      exact Run.fail_closed _ _
  | writeError kind => exact .inr ⟨hphase, .inl rfl⟩
  | startTls h =>
      refine .inr ⟨?_, .inl rfl⟩
      show (Run.endHandshake _ h).phase = _
      simp only [Run.endHandshake, hphase]
      rfl

theorem rests_of_silent {step : ClientStep} (hsilent : Silent [step]) :
    Run.Rests c.run (c.takeStep step).run := by
  have hturned := c.run.rests_wire c.run.wire.turn
  cases step with
  | send bs =>
      obtain rfl := hsilent bs List.mem_cons_self
      exact hturned
  | wait milliseconds => exact hturned.trans (Run.rests_elapse _ _)
  | readError kind => exact hturned.trans (Run.rests_readFailed _ _)
  | writeError kind => exact c.run.rests_wire _
  | startTls h => exact hturned.trans (Run.rests_endHandshake _ _)

/-- Without bytes the waits add up, and not above the limit. -/
theorem phase_through_of_silent {steps : List ClientStep} (hphase : c.run.phase = .reading idle)
    (hsilent : Silent steps) :
    (through steps c).run.IsClosed ∨
      (through steps c).run.phase = .reading (idle + waited steps) ∧
        (waited steps = 0 ∨ idle + waited steps ≤ c.run.session.settings.idleLimit) ∧
          (through steps c).run.session.settings = c.run.session.settings := by
  induction steps generalizing c idle with
  | nil => exact .inr ⟨hphase, .inl rfl, rfl⟩
  | cons step steps ih =>
      have hone : Silent [step] := fun bs h => hsilent bs (by simp [List.mem_singleton.1 h])
      have hadd : waited (step :: steps) = waited [step] + waited steps := by
        cases step with
        | wait milliseconds => rfl
        | send | readError | writeError | startTls => exact (Nat.zero_add _).symm
      have hsettings := (rests_of_silent hone (c := c)).settings
      rw [through_cons_of_reading hphase, hadd]
      obtain hclosed | ⟨hnext, hbound⟩ := phase_of_silent hphase hone
      · left
        rw [through_of_closed hclosed]
        exact hclosed
      · obtain hclosed | ⟨hlast, hrest, hsame⟩ :=
          ih hnext fun bs h => hsilent bs (List.mem_cons_of_mem _ h)
        · exact .inl hclosed
        · rw [hsettings] at hrest hsame
          refine .inr ⟨by rw [hlast, Nat.add_assoc], ?_, hsame⟩
          omega

/-- The run has ended, or it still reads, the steps have taken no longer than the limit, and it will
end with the next wait that exceeds the limit. -/
def Limited (c : Recording α δ) (idle : Nat) (steps : List ClientStep) : Prop :=
  let r := (through steps c).run
  let limit := r.session.settings.idleLimit
  r.IsClosed ∨
    r.phase = .reading (idle + waited steps) ∧ waited steps ≤ limit ∧
      ∀ milliseconds, limit < idle + waited steps + milliseconds →
        Run.TimesOut r (r.takeStep (.wait milliseconds))

theorem limited_of_silent {steps : List ClientStep} (hphase : c.run.phase = .reading idle)
    (hsilent : Silent steps) : c.Limited idle steps := by
  obtain hclosed | ⟨hlast, hbound, hsettings⟩ := phase_through_of_silent hphase hsilent
  · exact .inl hclosed
  · refine .inr ⟨hlast, ?_, fun milliseconds hlong => Run.elapse_of_long hlast hlong⟩
    rw [hsettings]
    omega

/-- All bytes that arrive complete a frame. -/
def Whole (c : Recording α δ) (steps : List ClientStep) : Prop :=
  ∀ before bs later, steps = before ++ .send bs :: later → bs ≠ [] →
    (through (before ++ [.send bs]) c).entries ≠ (through before c).entries

/-- Where all bytes complete a frame, there is none without a frame. -/
theorem Whole.silent {steps : List ClientStep} (h : c.Whole steps)
    (hsame : (through steps c).entries = c.entries) : Silent steps := by
  intro bs hmem
  obtain ⟨before, later, rfl⟩ := List.append_of_mem hmem
  by_contra hbytes
  refine h before bs later rfl hbytes ?_
  have hfirst := entries_prefix_through before c
  have hbetween := entries_prefix_through [.send bs] (through before c)
  have hlast := entries_prefix_through later (through (before ++ [.send bs]) c)
  rw [← through_append] at hbetween hlast
  rw [List.append_assoc, List.singleton_append, hsame] at hlast
  exact (hbetween.eq_of_length_le (Nat.le_trans hlast.length_le hfirst.length_le)).symm

end Recording

/-- The idle limit is one on the time without bytes.  If all bytes that arrive complete a frame, it
is one on the time since the last frame, or since the greeting. -/
theorem idle_limit_counts_from_bytes [Authenticator α] (c : Connection α δ)
    (greetingError : Option IoKind) (before : List ClientStep) {idle : Nat}
    (hreading : (c.recorded ⟨greetingError, before⟩).run.phase = .reading idle) :
    let now := c.recorded ⟨greetingError, before⟩
    (∀ later, now.Whole later →
      (c.recorded ⟨greetingError, before ++ later⟩).entries = now.entries →
        now.Limited idle later) ∧
      (∀ later, Silent later → now.Limited idle later) ∧
      ∀ bs, bs ≠ [] → (c.recorded ⟨greetingError, before ++ [.send bs]⟩).run.Fresh := by
  intro now
  have hrecorded (later : List ClientStep) :
      c.recorded ⟨greetingError, before ++ later⟩ = Recording.through later now :=
    Recording.through_append before later _
  refine ⟨fun later hwhole hsame => ?whole, fun later hsilent => ?silent, fun bs hbytes => ?bytes⟩
  case whole =>
    rw [hrecorded] at hsame
    exact Recording.limited_of_silent hreading (hwhole.silent hsame)
  case silent => exact Recording.limited_of_silent hreading hsilent
  case bytes =>
    rw [hrecorded, Recording.through_cons_of_reading hreading]
    show ((readsOf _ bs).foldl Recording.takeRead _).run.Fresh
    rw [Recording.run_takeReads]
    exact Run.fresh_takeReads (mt readsOf_eq_nil.1 hbytes) _

theorem idle_limit_counts_from_bytes_noop :
    let c := Connection.bare { idleLimit := 100 }
    let before := [ClientStep.send (Text.encode "NOOP\r\n")]
    let later := [ClientStep.wait 60, .wait 40]
    let now := c.recorded ⟨none, before⟩
    now.run.phase = .reading 0 ∧ now.Whole later ∧
      (c.recorded ⟨none, before ++ later⟩).entries = now.entries ∧ now.Limited 0 later := by
  intro c before later now
  have hreading : now.run.phase = .reading 0 := by decide +kernel
  have hwhole : now.Whole later := by
    intro l bs rest heq
    have hmem : ClientStep.send bs ∈ later := heq ▸ List.mem_append_right l List.mem_cons_self
    simp [later] at hmem
  have hsame : (c.recorded ⟨none, before ++ later⟩).entries = now.entries := by
    have hbefore : now.entries <+: (Recording.through later now).entries :=
      Recording.entries_prefix_through later now
    exact (hbefore.eq_of_length (by decide +kernel)).symm
  exact ⟨hreading, hwhole, hsame,
    (idle_limit_counts_from_bytes c none before hreading).1 later hwhole hsame⟩

/-- Two parts of a line keep a client beyond the limit. -/
theorem idle_limit_exceeded :
    let steps := [ClientStep.send (Text.encode "NO"), .wait 60, .send (Text.encode "OP"), .wait 60]
    let c := Connection.bare { idleLimit := 100 }
    waited steps = 120 ∧ (c.recorded ⟨none, steps⟩).entries.length = 0 ∧
      ((c.run ⟨none, steps ++ [.send (Text.encode "\r\n")]⟩).transcript.map Text.decode
        = ["220 localhost ESMTP Mailgate\r\n", "", "", "", "", "250 Ok\r\n"]) := by
  decide +kernel

end SmtpReceiver
