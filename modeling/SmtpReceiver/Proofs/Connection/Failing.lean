import SmtpReceiver.Proofs.Connection.Moves
import SmtpReceiver.Proofs.Connection.Transcript

/-!
# How a session fails

A command of the application may fail in any way.  The session then ends at its frame,
and what the client is told and what the run results in depend on the failure alone.
`Reports` says so of a run and its frames as long as no write fails.

A failure that says that the client went away is not told, and is no failure of the run.
That is right where the transport to the client has failed.  But a command that fails by
input or output of its own gives the same failure.  The session ends as if the client
had gone (`failing_command_taken_for_disconnect`).  Every other failure is told and is
what the run results in, and no run ends in silence but for one of these two reasons
(`failing_command_is_told`).
-/

namespace SmtpReceiver

open Auth (Authenticator)
open Text (Bytes)

variable {α δ : Type}

/-- The transport to the client fails in this way. -/
def Client.Breaks (client : Client) (kind : IoKind) : Prop :=
  client.greetingError = some kind ∨ .readError kind ∈ client.steps ∨
    .writeError kind ∈ client.steps

namespace Run

variable {greeting : Reply} {es : List (Entry α δ)} {r r' : Run α δ} {failure : Failure}

/-! ## A failure at a frame -/

/-- The run goes on, and has answered all these frames. -/
structure Going (greeting : Reply) (es : List (Entry α δ)) (r : Run α δ) : Prop where
  answered : ∀ e ∈ es, ∀ failure, e.outcome.answer ≠ .error failure
  shut : r.wire.shut = false
  written : r.wire.written = (greeting :: es.map fun e => e.reply).flatMap Reply.wire

/-- The run is over, and the client was told of the failure. -/
structure Ended (greeting : Reply) (es : List (Entry α δ)) (failure : Failure) (r : Run α δ) :
    Prop where
  phase : r.phase = .closed (if failure.isDisconnect then .ok () else .error failure)
  shut : r.wire.shut = !failure.isDisconnect
  written : r.wire.written
    = (greeting :: es.map (fun e => e.reply) ++ lastWords failure).flatMap Reply.wire

/-- A frame at which a command fails is the last one. -/
structure Reports (greeting : Reply) (es : List (Entry α δ)) (r : Run α δ) : Prop where
  fault : r.wire.fault = none
  going : ¬ r.IsClosed → Going greeting es r
  failed : ∀ e ∈ es, ∀ failure, e.outcome.answer = .error failure →
    ∃ before, es = before ++ [e] ∧ Ended greeting before failure r

theorem ended_fail (h : Going greeting es r) (hfault : r.wire.fault = none) (failure : Failure) :
    Ended greeting es failure (r.fail failure) := by
  cases htold : failure.isDisconnect with
  | true =>
      simp only [fail, htold, if_true]
      refine ⟨?_, ?_, ?_⟩
      · rw [htold]; rfl
      · rw [htold]; exact h.shut
      · simp only [lastWords, htold, if_true, List.append_nil]
        exact h.written
  | false =>
      obtain ⟨wire, hwrite, -, hwritten⟩ := Wire.write_of_sound hfault failure.reply.wire
      simp only [fail, htold, Bool.false_eq_true, if_false, Run.write, hwrite]
      refine ⟨?_, ?_, ?_⟩
      · rw [htold]; rfl
      · rw [htold]; rfl
      · simp only [lastWords, htold, Bool.false_eq_true, if_false]
        rw [List.flatMap_append, List.flatMap_singleton, ← h.written]
        exact hwritten

/-- What a run becomes that was going on.  A write may be lost only if the run is closed. -/
theorem Going.reports (h : Going greeting es r) (hfault : r'.wire.fault = none)
    (hgoes : ¬ r'.IsClosed →
      r'.wire.shut = r.wire.shut ∧ r'.wire.written = r.wire.written) :
    Reports greeting es r' where
  fault := hfault
  going hopen :=
    ⟨h.answered, (hgoes hopen).1.trans h.shut, (hgoes hopen).2.trans h.written⟩
  failed e he failure hfailed := absurd hfailed (h.answered e he failure)

/-- Only the phase and what was done to the transport matter. -/
theorem Reports.congr (h : Reports greeting es r) (hphase : r'.phase = r.phase)
    (hfault : r'.wire.fault = r.wire.fault) (hshut : r'.wire.shut = r.wire.shut)
    (hwritten : r'.wire.written = r.wire.written) : Reports greeting es r' where
  fault := hfault.trans h.fault
  going hopen := by
    have hgoing := h.going (by unfold IsClosed at hopen ⊢; rwa [← hphase])
    exact ⟨hgoing.answered, hshut.trans hgoing.shut, hwritten.trans hgoing.written⟩
  failed e he failure hfailed := by
    obtain ⟨before, hes, hended⟩ := h.failed e he failure hfailed
    exact ⟨before, hes, hphase.trans hended.phase, hshut.trans hended.shut,
      hwritten.trans hended.written⟩

theorem fault_fail (hfault : r.wire.fault = none) (failure : Failure) :
    (r.fail failure).wire.fault = none := by
  unfold fail
  split
  next => exact hfault
  next => exact r.wire.fault_write _

theorem fault_farewell (reply : Reply) : (r.farewell reply).wire.fault = none := by
  have hfault := r.wire.fault_write reply.wire
  unfold farewell write
  generalize r.wire.write reply.wire = p at hfault
  obtain ⟨cause?, wire⟩ := p
  cases cause? with
  | some cause => exact hfault
  | none => exact hfault

theorem Going.settleQuit (h : Going greeting es r) (hfault : r.wire.fault = none) :
    Reports greeting es r.settleQuit := by
  unfold Run.settleQuit
  split
  next => exact h.reports hfault fun _ => ⟨rfl, rfl⟩
  next => exact h.reports hfault fun hopen => absurd ⟨_, rfl⟩ hopen

theorem Going.afterReply (h : Going greeting es r) (hfault : r.wire.fault = none) :
    Reports greeting es r.afterReply := by
  unfold Run.afterReply
  split
  next =>
    obtain ⟨decoder, buffer, phase, hbegin, -⟩ := r.beginTls_eq
    rw [hbegin]
    exact h.reports hfault fun _ => ⟨rfl, rfl⟩
  next => exact h.settleQuit hfault

theorem Reports.move {steps : List ClientStep} (hsteps : ∀ kind, .writeError kind ∉ steps)
    (h : Reports greeting es r) (hmove : Move steps r r') : Reports greeting es r' := by
  have hreading {idle : Nat} (hphase : r.phase = .reading idle) : Going greeting es r :=
    h.going (not_closed_of_reading hphase)
  have hwaiting (hphase : r.phase = .handshake) : Going greeting es r :=
    h.going (not_closed_of_handshake hphase)
  cases hmove with
  | stay => exact h
  | turn => exact h.congr rfl rfl rfl (Wire.written_turn _)
  | wait idle' hphase => exact (hreading hphase).reports h.fault fun _ => ⟨rfl, rfl⟩
  | read bs hphase => exact (hreading hphase).reports h.fault fun _ => ⟨rfl, rfl⟩
  | decode hphase => exact (hreading hphase).reports h.fault fun _ => ⟨rfl, rfl⟩
  | tooIdle hphase =>
      exact (hreading hphase).reports (fault_farewell _) fun hopen =>
        absurd (farewell_closed r tooIdle) hopen
  | readError kind hphase =>
      exact (hreading hphase).reports (fault_fail h.fault _) fun hopen =>
        absurd (fail_closed r _) hopen
  | badFrame hphase =>
      exact (hreading hphase).reports (fault_fail h.fault _) fun hopen =>
        absurd (fail_closed r _) hopen
  | writeError kind hmem => exact absurd hmem (hsteps kind)
  | noTls cause hphase =>
      exact (hwaiting hphase).reports h.fault fun hopen => absurd ⟨_, rfl⟩ hopen
  | lostTls hphase hwrite =>
      have hfault := r.wire.fault_write []
      rw [hwrite] at hfault
      exact (hwaiting hphase).reports hfault fun hopen => absurd ⟨_, rfl⟩ hopen
  | startTls hphase hwrite =>
      obtain ⟨wire, hsound, hfault, hwritten⟩ := Wire.write_of_sound h.fault []
      have hshut := r.wire.shut_write []
      rw [hwrite] at hsound hshut
      obtain rfl := (Prod.mk.inj hsound).2
      have hgoing := hwaiting hphase
      rw [List.append_nil] at hwritten
      exact Going.settleQuit
        ⟨hgoing.answered, hshut.trans hgoing.shut, hwritten.trans hgoing.written⟩ hfault

theorem Reports.takeFrame [Authenticator α] {idle : Nat} {e : Entry α δ}
    (h : Reports greeting es r) (hphase : r.phase = .reading idle)
    (houtcome : e.outcome = r.table.dispatch e.frame r.session) :
    Reports greeting (es ++ [e]) (r.takeFrame e.frame) := by
  have hgoing := h.going (not_closed_of_reading hphase)
  have hsession : Going greeting es
      { r with session := e.outcome.session, calls := r.calls ++ e.outcome.calls } :=
    ⟨hgoing.answered, hgoing.shut, hgoing.written⟩
  have hfault : Wire.fault (Run.wire
      { r with session := e.outcome.session, calls := r.calls ++ e.outcome.calls }) = none :=
    h.fault
  unfold Run.takeFrame
  rw [← houtcome]
  dsimp only
  generalize { r with session := e.outcome.session, calls := r.calls ++ e.outcome.calls } = r₁
    at hsession hfault
  cases hanswer : e.outcome.answer with
  | error failure =>
      have hended := ended_fail hsession hfault failure
      refine ⟨fault_fail hfault failure, fun hopen => absurd (fail_closed _ _) hopen, ?_⟩
      intro e' he' failure' hfailed
      obtain hmem | hlast := List.mem_append.1 he'
      · exact absurd hfailed (hgoing.answered e' hmem failure')
      · obtain rfl := List.mem_singleton.1 hlast
        obtain rfl : failure = failure' := Except.error.inj (hanswer.symm.trans hfailed)
        exact ⟨es, rfl, hended⟩
  | ok reply =>
      obtain ⟨wire, hwrite, hsound, hwritten⟩ := Wire.write_of_sound hfault reply.wire
      have hshut := r₁.wire.shut_write reply.wire
      rw [hwrite] at hshut
      simp only [Run.write, hwrite]
      have hreply : e.reply = reply := by simp only [Event.reply, hanswer]
      refine Going.afterReply ⟨?_, hshut.trans hsession.shut, ?_⟩ hsound
      · refine List.forall_mem_append.2 ⟨hsession.answered, List.forall_mem_singleton.2 ?_⟩
        intro failure hfailed
        rw [hanswer] at hfailed
        cases hfailed
      · rw [List.map_append, ← List.cons_append, List.flatMap_append, ← hsession.written,
          List.map_singleton, List.flatMap_singleton, hreply]
        exact hwritten

theorem reports_start (c : Connection α δ) :
    Reports (.line .ready c.session.settings.greeting) ([] : List (Entry α δ)) (start c none) := by
  have hclosed {r : Run α δ} (hfault : r.wire.fault = none) (h : r.IsClosed) :
      Reports (.line .ready c.session.settings.greeting) [] r :=
    ⟨hfault, fun hopen => absurd h hopen, fun e he => absurd he List.not_mem_nil⟩
  unfold start
  split
  next => exact hclosed (fault_farewell _) (farewell_closed _ _)
  next =>
    obtain ⟨wire, hwrite, hfault, hwritten⟩ :=
      Wire.write_of_sound (w := {}) rfl (Reply.line .ready c.session.settings.greeting).wire
    have hshut := Wire.shut_write {} (Reply.line .ready c.session.settings.greeting).wire
    rw [hwrite] at hshut
    simp only [Run.write, hwrite]
    refine ⟨hfault, fun _ => ⟨fun e he => absurd he List.not_mem_nil, hshut, ?_⟩,
      fun e he => absurd he List.not_mem_nil⟩
    rw [List.map_nil, List.flatMap_singleton]
    exact hwritten

/-! ## An end in silence -/

/-- Why a run may end in silence and without a failure.  The transport to the client has failed, or
a command failed in a way that looks like it. -/
def Gone (client : Client) (es : List (Entry α δ)) : Prop :=
  (∃ kind, client.Breaks kind ∧ kind.isDisconnect = true) ∨
    ∃ e ∈ es, ∃ failure, e.outcome.answer = .error failure ∧ failure.isDisconnect = true

/-- A run that is closed in silence and without a failure has a reason to be. -/
structure Explained (client : Client) (es : List (Entry α δ)) (r : Run α δ) : Prop where
  fault : ∀ kind, r.wire.fault = some kind → client.Breaks kind
  silent : r.phase = .closed (.ok ()) → r.wire.shut = false → Gone client es

variable {client : Client}

theorem phase_writeFailed {cause : IoFailure}
    (h : (r.writeFailed cause).phase = .closed (.ok ())) : cause.kind.isDisconnect = true := by
  unfold writeFailed at h
  split at h
  next hkind => exact hkind
  next => cases h

/-- A failure that is told shuts the transport. -/
theorem isDisconnect_of_silent (h : (r.fail failure).phase = .closed (.ok ())) :
    failure.isDisconnect = true := by
  unfold fail at h
  split at h
  next hkind => exact hkind
  next => cases h

theorem shut_settleQuit (hopen : ¬ r.IsClosed) (h : r.settleQuit.phase = .closed (.ok ())) :
    r.settleQuit.wire.shut = true := by
  unfold settleQuit at h ⊢
  split at h
  next => exact absurd ⟨_, h⟩ hopen
  next hquit => rw [if_neg hquit]; rfl

theorem shut_afterReply (hopen : ¬ r.IsClosed) (h : r.afterReply.phase = .closed (.ok ())) :
    r.afterReply.wire.shut = true := by
  unfold afterReply at h ⊢
  split at h
  next =>
    obtain ⟨decoder, buffer, phase, hbegin, rfl | ⟨detail, rfl⟩⟩ := r.beginTls_eq
    · rw [hbegin] at h; cases h
    · rw [hbegin] at h; cases h
  next hwants =>
    rw [if_neg hwants]
    exact shut_settleQuit hopen h

theorem fault_settleQuit (r : Run α δ) : r.settleQuit.wire.fault = r.wire.fault := by
  unfold settleQuit
  split
  next => rfl
  next => rfl

theorem fault_afterReply (r : Run α δ) : r.afterReply.wire.fault = r.wire.fault := by
  unfold afterReply
  split
  next =>
    obtain ⟨decoder, buffer, phase, hbegin, -⟩ := r.beginTls_eq
    rw [hbegin]
  next => exact r.fault_settleQuit

theorem breaks_of_none {wire : Wire} (hfault : wire.fault = none) (kind : IoKind)
    (hkind : wire.fault = some kind) : client.Breaks kind := by
  rw [hfault] at hkind
  cases hkind

/-- A write ends a run in silence only if the transport has failed. -/
theorem Explained.afterWrite (h : Explained client es r) (reply : Reply) {f : Run α δ → Run α δ}
    (hf : ∀ wire : Wire, wire.fault = none → Explained client es (f { r with wire })) :
    Explained client es
      (match r.write reply with
      | (some cause, r) => r.writeFailed cause
      | (none, r) => f r) := by
  have hfault := r.wire.fault_write reply.wire
  refine afterWrite_cases r reply (fun cause wire hwrite => ?_) fun wire hwrite => ?_
  · rw [hwrite] at hfault
    have hbreaks := h.fault _ (Wire.fault_of_failure (congrArg Prod.fst hwrite))
    refine ⟨breaks_of_none hfault, fun hclosed _ => ?_⟩
    exact .inl ⟨cause.kind, hbreaks, phase_writeFailed hclosed⟩
  · rw [hwrite] at hfault
    exact hf wire hfault

theorem Explained.farewell (h : Explained client es r) (reply : Reply) :
    Explained client es (r.farewell reply) :=
  h.afterWrite (f := fun r => r.shut (.ok ())) reply fun _ hfault =>
    ⟨breaks_of_none hfault, fun _ hshut => by cases hshut⟩

theorem Explained.afterReply (hfault : r.wire.fault = none) (hopen : ¬ r.IsClosed) :
    Explained client es r.afterReply := by
  refine ⟨breaks_of_none ((fault_afterReply r).trans hfault), fun hclosed hshut => ?_⟩
  rw [shut_afterReply hopen hclosed] at hshut
  cases hshut

theorem Explained.fail (h : Explained client es r) (failure : Failure)
    (hgone : failure.isDisconnect = true → Gone client es) :
    Explained client es (r.fail failure) := by
  refine ⟨?_, fun hclosed _ => hgone (isDisconnect_of_silent hclosed)⟩
  intro kind hfault
  unfold Run.fail at hfault
  split at hfault
  next => exact h.fault kind hfault
  next =>
    have hnone := r.wire.fault_write failure.reply.wire
    rw [show (r.wire.write failure.reply.wire).2.fault = some kind from hfault] at hnone
    cases hnone

theorem Explained.move (h : Explained client es r) (hmove : Move client.steps r r') :
    Explained client es r' := by
  cases hmove with
  | stay => exact h
  | turn => exact ⟨h.fault, h.silent⟩
  | wait idle' hphase => exact ⟨h.fault, nofun⟩
  | read bs hphase => exact ⟨h.fault, nofun⟩
  | decode hphase =>
      exact ⟨h.fault, fun hclosed => absurd ⟨_, hclosed⟩ (not_closed_of_reading hphase)⟩
  | tooIdle hphase => exact h.farewell tooIdle
  | readError kind hphase hmem => exact h.fail _ fun hkind => .inl ⟨kind, .inr (.inl hmem), hkind⟩
  | badFrame hphase hfails =>
      refine h.fail _ fun hkind => ?_
      cases hfails with
      | lineTooLong => cases hkind
      | files failure => cases failure.noDisconnect.symm.trans hkind
  | writeError kind hmem =>
      refine ⟨fun kind' hkind => ?_, h.silent⟩
      cases hkind
      exact .inr (.inr hmem)
  | noTls cause hphase => exact ⟨h.fault, nofun⟩
  | lostTls hphase hwrite =>
      have hfault := r.wire.fault_write []
      rw [hwrite] at hfault
      exact ⟨breaks_of_none hfault, nofun⟩
  | startTls hphase hwrite =>
      have hfault := r.wire.fault_write []
      rw [hwrite] at hfault
      refine ⟨breaks_of_none ((fault_settleQuit _).trans hfault), fun hclosed hshut => ?_⟩
      rw [shut_settleQuit (not_closed_of_reading rfl) hclosed] at hshut
      cases hshut

theorem Explained.takeFrame [Authenticator α] {idle : Nat} {e : Entry α δ}
    (h : Explained client es r) (hphase : r.phase = .reading idle)
    (houtcome : e.outcome = r.table.dispatch e.frame r.session) :
    Explained client (es ++ [e]) (r.takeFrame e.frame) := by
  have hmore : Gone client es → Gone client (es ++ [e]) := by
    rintro (hbreaks | ⟨e', he', hfailed⟩)
    · exact .inl hbreaks
    · exact .inr ⟨e', List.mem_append_left _ he', hfailed⟩
  have hsession : Explained client (es ++ [e])
      { r with session := e.outcome.session, calls := r.calls ++ e.outcome.calls } :=
    ⟨h.fault, fun hclosed hshut => hmore (h.silent hclosed hshut)⟩
  have hopen : ¬ IsClosed
      { r with session := e.outcome.session, calls := r.calls ++ e.outcome.calls } :=
    not_closed_of_reading hphase
  unfold Run.takeFrame
  rw [← houtcome]
  dsimp only
  generalize { r with session := e.outcome.session, calls := r.calls ++ e.outcome.calls } = r₁
    at hsession hopen
  cases hanswer : e.outcome.answer with
  | error failure =>
      refine hsession.fail failure fun hkind => ?_
      exact .inr ⟨e, List.mem_append_right _ (List.mem_singleton_self e), failure, hanswer, hkind⟩
  | ok reply =>
      exact hsession.afterWrite reply fun wire hfault =>
        .afterReply (r := { r₁ with wire }) hfault hopen

theorem explained_start (c : Connection α δ) :
    Explained client ([] : List (Entry α δ)) (start c client.greetingError) := by
  have hbegun : Explained client []
      { session := c.session, table := c.table, hasTls := c.hasTls,
        wire := { fault := client.greetingError } } := ⟨fun _ hkind => .inl hkind, nofun⟩
  unfold start
  split
  next => exact hbegun.farewell tooMany
  next =>
    exact hbegun.afterWrite (f := fun r => r) _ fun _ hfault => ⟨breaks_of_none hfault, nofun⟩

end Run

/-! ## Whole runs -/

namespace Connection

variable [Authenticator α] {c : Connection α δ} {client : Client}

theorem reports_recorded (c : Connection α δ) (h : ¬ (c.taken client).FailsWrites) :
    (c.recorded client).Holds (Run.Reports (.line .ready c.session.settings.greeting)) := by
  rw [← c.recorded_taken client]
  obtain ⟨hgreeting, hsteps⟩ := not_or.1 h
  refine Recording.Invariant.recorded ⟨?_, ?_⟩ c ?_
  · intro es r r' hr hmove
    exact hr.move (not_exists.1 hsteps) hmove
  · intro es r idle e hr hphase _ houtcome
    exact hr.takeFrame hphase houtcome
  · rw [not_not.1 hgreeting]
    exact Run.reports_start c

theorem explained_recorded (c : Connection α δ) (client : Client) :
    (c.recorded client).Holds (Run.Explained (c.taken client)) := by
  rw [← c.recorded_taken client]
  refine Recording.Invariant.recorded ⟨?_, ?_⟩ c (Run.explained_start c)
  · intro es r r' hr hmove
    exact hr.move hmove
  · intro es r idle e hr hphase _ houtcome
    exact hr.takeFrame hphase houtcome

/-- A run that was closed before the client sent nothing more has the result it was closed with. -/
theorem result_of_closed {result : Except Failure Unit}
    (hclosed : (c.recorded client).run.phase = .closed result) :
    (c.run client).result = result := by
  have hphase := c.phase_endOfInput client
  simp only [Run.endOfInput, hclosed] at hphase
  exact (Phase.closed.inj hphase).symm

end Connection

/-- A command that fails ends the session at its frame, whatever the commands are.  If no write has
failed, the client is told of the failure last, the transport is closed and the failure is what the
run results in, unless the failure says that the client went away.  A run ends in silence and without
a failure only if the client has nothing more to send, if the transport to it has failed, or at such
a frame. -/
theorem failing_command_is_told [Authenticator α] (c : Connection α δ) (client : Client) :
    let t := c.recorded client
    let report := c.run client
    let greeting := Reply.line .ready c.session.settings.greeting
    (¬ (c.taken client).FailsWrites → ∀ e ∈ t.entries, ∀ failure, e.outcome.answer = .error failure →
      ∃ before, t.entries = before ++ [e] ∧
        (failure.isDisconnect = false →
          report.result = .error failure ∧ report.shut = true ∧
          report.transcript.flatten
            = (greeting :: before.map (fun e => e.reply) ++ [failure.reply]).flatMap Reply.wire) ∧
        (failure.isDisconnect = true →
          report.result = .ok () ∧ report.shut = false ∧
          report.transcript.flatten
            = (greeting :: before.map fun e => e.reply).flatMap Reply.wire)) ∧
    (report.result = .ok () → report.shut = false →
      ¬ t.run.IsClosed ∨ (∃ kind, (c.taken client).Breaks kind ∧ kind.isDisconnect = true) ∨
        ∃ e ∈ t.entries, ∃ failure, e.outcome.answer = .error failure ∧
          failure.isDisconnect = true) := by
  intro t report greeting
  refine ⟨?_, ?_⟩
  · intro hwrites e he failure hfailed
    have hreports : t.run.Reports greeting t.entries := (c.reports_recorded hwrites).now
    obtain ⟨before, hentries, hphase, hshut, hwritten⟩ := hreports.failed e he failure hfailed
    have hresult := Connection.result_of_closed hphase
    have hsame := (c.shut_run client).trans hshut
    have htranscript : report.transcript.flatten = t.run.wire.written :=
      congrArg List.flatten (c.transcript_run client)
    refine ⟨before, hentries, fun htold => ?_, fun htold => ?_⟩
    · rw [Run.lastWords, htold] at hwritten
      rw [htold] at hresult hsame
      exact ⟨hresult, hsame, htranscript.trans hwritten⟩
    · rw [Run.lastWords, htold, if_pos rfl, List.append_nil] at hwritten
      rw [htold] at hresult hsame
      exact ⟨hresult, hsame, htranscript.trans hwritten⟩
  · intro hresult hshut
    by_cases hclosed : t.run.IsClosed
    · right
      obtain ⟨result, hphase⟩ := hclosed
      have hsame := Connection.result_of_closed hphase
      have hexplained : t.run.Explained (c.taken client) t.entries :=
        (c.explained_recorded client).now
      refine hexplained.silent ?_ ((c.shut_run client).symm.trans hshut)
      rw [hphase, ← hsame]
      exact congrArg Phase.closed hresult
    · exact .inl hclosed

/-- A connection without authentication, on which a line `STORE` fails. -/
def Connection.storing (failure : Failure) : Connection Auth.Open (Delivery.Fanout Unit) :=
  .make {}
    (CommandTable.builtin.add
      (.prepared { name := "STORE", reply := .line .ok "Ok", failure := some failure }))
    {} { listeners := [], world := () } false none

/-- The command finds no room on the disk.  The write that is to fail later does not matter. -/
theorem failing_command_is_told_storage_full :
    let full : Failure := .io ⟨.storageFull, "no space left"⟩
    let c := Connection.storing full
    let client : Client :=
      { steps := [.send (Text.encode "NOOP\r\nSTORE\r\nNOOP\r\n"), .writeError .brokenPipe] }
    let report := c.run client
    ¬ (c.taken client).FailsWrites ∧
    ∃ e ∈ (c.recorded client).entries, e.outcome.answer = .error full ∧
      ∃ before, (c.recorded client).entries = before ++ [e] ∧
        report.result = .error full ∧ report.shut = true ∧
        report.transcript.flatten
          = (.line .ready c.session.settings.greeting :: before.map (fun e => e.reply)
              ++ [full.reply]).flatMap Reply.wire := by
  intro full c client report
  have hsteps : (c.taken client).steps = client.steps.take 1 := by decide +kernel
  have hwrites : ¬ (c.taken client).FailsWrites := by
    rintro (hgreeting | ⟨kind, hmem⟩)
    · exact hgreeting rfl
    · rw [hsteps] at hmem
      cases List.mem_singleton.1 hmem
  have hany : (c.recorded client).entries.any (fun e => decide (e.outcome.answer = .error full))
      = true := by decide +kernel
  obtain ⟨e, he, hfailed⟩ := List.any_eq_true.1 hany
  have hanswer := of_decide_eq_true hfailed
  obtain ⟨before, hentries, htold, -⟩ :=
    (failing_command_is_told c client).1 hwrites e he full hanswer
  exact ⟨hwrites, e, he, hanswer, before, hentries, htold rfl⟩

/-- The command writes to a pipe of its own that is broken.  The client is still there, but is told
nothing, and the run has succeeded. -/
theorem failing_command_taken_for_disconnect :
    let broken : Failure := .io ⟨.brokenPipe, "no one reads the log"⟩
    let c := Connection.storing broken
    let client : Client := { steps := [.send (Text.encode "NOOP\r\nSTORE\r\nNOOP\r\n")] }
    let report := c.run client
    ¬ client.FailsWrites ∧ (∀ kind, ¬ client.Breaks kind) ∧
    (c.recorded client).entries.map (fun e => e.outcome.answer)
      = [.ok (.line .ok "Ok"), .error broken] ∧
    report.result = .ok () ∧ report.shut = false ∧
    report.transcript.map Text.decode = ["220 localhost ESMTP Mailgate\r\n", "250 Ok\r\n"] := by
  intro broken c client report
  refine ⟨?_, ?_, by decide +kernel, by decide +kernel, by decide +kernel, by decide +kernel⟩
  · rintro (hgreeting | ⟨kind, hmem⟩)
    · exact hgreeting rfl
    · cases List.mem_singleton.1 hmem
  · rintro kind (hgreeting | hmem | hmem)
    · cases hgreeting
    · cases List.mem_singleton.1 hmem
    · cases List.mem_singleton.1 hmem

end SmtpReceiver
