import SmtpReceiver.Proofs.Connection.Moves
import SmtpReceiver.Server

/-!
# What is known about TLS, and where

A connection knows twice whether TLS can be started, and a run knows twice whether it runs.
The session has it for the commands, and the connection and the transport have it for the
receiver.  In between a command leaves its wish for TLS in the session, until its reply is
written.

However a connection was put together, these agree (`Assembled.coherent`), and `Coherent`
says that they go on agreeing.  TLS is asked for only where it can be started and does not
run, and then the wish is taken back.  So there is no state in which the receiver would have
to say that the session should not be in it, and TLS is asked for once at most
(`tls_state_agrees`).
-/

namespace SmtpReceiver

open Auth (Authenticator)
open Delivery (Handler)
open Text (Bytes)

variable {α δ : Type}

/-- The client may start TLS after the frame. -/
def Event.wantsTls (e : Event α δ) : Bool := e.outcome.session.wantsTls

/-- Whether a failure is the receiver's own, and none of the transport, the client or a delivery. -/
def Failure.isInternal : Failure → Bool
  | protocol _ | config _ => true
  | _ => false

/-! ## Connections -/

namespace Connection

/-- The connections with the commands of the receiver that a receiver makes for a client, or that an
application puts together. -/
inductive Assembled [Authenticator α] [Handler δ] : Connection α δ → Prop where
  | make (settings : Settings) (auth : α) (delivery : δ) (remote : Option String) :
    Assembled (.make settings .builtin auth delivery false remote)
  | withAuth {c : Connection α δ} (auth : α) : Assembled c → Assembled (c.withAuth auth)
  | withDelivery {c : Connection α δ} (delivery : δ) : Assembled c →
    Assembled (c.withDelivery delivery)
  | withTls {c : Connection α δ} : Assembled c → Assembled c.withTls
  | withPlace {c : Connection α δ} (place : Nat) : Assembled c → Assembled (c.withPlace place)
  | connect {ω : Type} (server : Server α δ ω) (remote : Option String) {c : Connection α δ} :
    server.table = .builtin →
    (server.connect remote).2.waiting = server.waiting ++ [some c] → Assembled c

/-- What is known of a connection however it was put together. -/
structure Coherent [Authenticator α] [Handler δ] (c : Connection α δ) : Prop where
  table : c.table = .builtin
  offersTls : c.session.offersTls = c.hasTls
  secure : c.session.peer.secure = false
  wantsTls : c.session.wantsTls = false

variable [Authenticator α] [Handler δ] {c : Connection α δ}

theorem Assembled.coherent (h : c.Assembled) : c.Coherent := by
  induction h with
  | make settings auth delivery remote =>
      refine ⟨?_, rfl, rfl, rfl⟩
      simp only [Connection.make]
  | withAuth auth _ ih => exact ⟨ih.table, ih.offersTls, ih.secure, ih.wantsTls⟩
  | withDelivery delivery _ ih => exact ⟨ih.table, ih.offersTls, ih.secure, ih.wantsTls⟩
  | withTls _ ih => exact ⟨ih.table, rfl, ih.secure, ih.wantsTls⟩
  | withPlace place _ ih => exact ⟨ih.table, ih.offersTls, ih.secure, ih.wantsTls⟩
  | connect server remote htable hwaiting =>
      obtain rfl := Option.some.inj (List.cons.inj (List.append_cancel_left hwaiting)).1
      exact ⟨htable, rfl, rfl, rfl⟩

end Connection

/-! ## Runs -/

namespace Run

variable [Authenticator α] [Handler δ]

/-- What is known about TLS agrees, and TLS was asked for once at most. -/
structure Agrees (canStart : Bool) (es : List (Entry α δ)) (r : Run α δ) : Prop where
  table : r.table = .builtin
  hasTls : r.hasTls = canStart
  offersTls : r.session.offersTls = canStart
  secure : r.session.peer.secure = r.wire.secure
  once : es.countP (fun e => e.wantsTls) ≤ 1

/-- TLS was not asked for before the run waits for it, and the wish is taken back by then. -/
structure Coherent (canStart : Bool) (es : List (Entry α δ)) (r : Run α δ) : Prop
    extends Agrees canStart es r where
  wantsTls : ¬ r.IsClosed → r.session.wantsTls = false
  plain : ∀ idle, r.phase = .reading idle → r.wire.secure = false →
    es.countP (fun e => e.wantsTls) = 0
  waits : r.phase = .handshake → r.wire.secure = false ∧ es.countP (fun e => e.wantsTls) = 1
  result : ∀ failure, r.phase = .closed (.error failure) → failure.isInternal = false

variable {canStart : Bool} {es : List (Entry α δ)} {r r' : Run α δ} {steps : List ClientStep}

/-- What was written, or fails to be, does not matter. -/
theorem Coherent.of_wire (h : Coherent canStart es r) {wire : Wire}
    (hsecure : wire.secure = r.wire.secure) : Coherent canStart es { r with wire } where
  table := h.table
  hasTls := h.hasTls
  offersTls := h.offersTls
  secure := h.secure.trans hsecure.symm
  once := h.once
  wantsTls := h.wantsTls
  plain idle hphase hplain := h.plain idle hphase (hsecure.symm.trans hplain)
  waits hphase := ⟨hsecure.trans (h.waits hphase).1, (h.waits hphase).2⟩
  result := h.result

/-- A run that goes on reading keeps what is known. -/
theorem Coherent.goes_on (h : Coherent canStart es r) {idle idle' : Nat}
    (hphase : r.phase = .reading idle) (htable : r'.table = r.table) (hhas : r'.hasTls = r.hasTls)
    (hsession : r'.session = r.session) (hsecure : r'.wire.secure = r.wire.secure)
    (hphase' : r'.phase = .reading idle') : Coherent canStart es r' where
  table := htable.trans h.table
  hasTls := hhas.trans h.hasTls
  offersTls := hsession ▸ h.offersTls
  secure := by rw [hsession, hsecure]; exact h.secure
  once := h.once
  wantsTls _ := by rw [hsession]; exact h.wantsTls (not_closed_of_reading hphase)
  plain _ _ hplain := h.plain idle hphase (hsecure.symm.trans hplain)
  waits hwaits := by rw [hphase'] at hwaits; cases hwaits
  result failure hclosed := by rw [hphase'] at hclosed; cases hclosed

/-- A run may be closed at any time, if the failure is not the receiver's own. -/
theorem Agrees.closed (h : Agrees canStart es r) (wire : Wire)
    (hsecure : wire.secure = r.wire.secure) {result : Except Failure Unit}
    (hresult : ∀ failure, result = .error failure → failure.isInternal = false) :
    Coherent canStart es { r with wire, phase := .closed result } where
  table := h.table
  hasTls := h.hasTls
  offersTls := h.offersTls
  secure := h.secure.trans hsecure.symm
  once := h.once
  wantsTls hopen := absurd ⟨_, rfl⟩ hopen
  plain := nofun
  waits := nofun
  result failure hclosed := hresult failure (Phase.closed.inj hclosed)

theorem Agrees.writeFailed (h : Agrees canStart es r) {wire : Wire}
    (hsecure : wire.secure = r.wire.secure) (cause : IoFailure) :
    Coherent canStart es (writeFailed { r with wire } cause) := by
  refine h.closed _ hsecure fun failure hfailed => ?_
  split at hfailed
  next => cases hfailed
  next => cases hfailed; rfl

theorem Agrees.fail (h : Agrees canStart es r) {failure : Failure}
    (hexternal : failure.isInternal = false) : Coherent canStart es (r.fail failure) := by
  unfold Run.fail
  split
  next => exact h.closed r.wire rfl nofun
  next =>
    refine h.closed { (r.wire.write failure.reply.wire).2 with shut := true }
      (r.wire.secure_write _) ?_
    rintro failure' ⟨⟩
    exact hexternal

/-- What follows a reply keeps what is known if it does after a write that succeeds. -/
theorem Agrees.afterWrite (h : Agrees canStart es r) (reply : Reply) {f : Run α δ → Run α δ}
    (hf : ∀ wire : Wire, wire.secure = r.wire.secure → Coherent canStart es (f { r with wire })) :
    Coherent canStart es
      (match r.write reply with
      | (some cause, r) => r.writeFailed cause
      | (none, r) => f r) := by
  have hsecure := r.wire.secure_write reply.wire
  refine afterWrite_cases r reply (fun cause wire hwrite => ?_) fun wire hwrite => ?_
  · rw [hwrite] at hsecure
    exact h.writeFailed hsecure cause
  · rw [hwrite] at hsecure
    exact hf wire hsecure

theorem Agrees.farewell (h : Agrees canStart es r) (reply : Reply) :
    Coherent canStart es (r.farewell reply) :=
  h.afterWrite (f := fun r => r.shut (.ok ())) reply fun wire hsecure =>
    h.closed { wire with shut := true } hsecure nofun

theorem Coherent.settleQuit (h : Coherent canStart es r) : Coherent canStart es r.settleQuit := by
  unfold Run.settleQuit
  split
  next => exact h
  next => exact h.closed { r.wire with shut := true } rfl nofun

/-! ## One frame -/

section Frame

variable {idle : Nat} {e : Entry α δ}

/-- TLS is asked for only where it can be started and does not run. -/
theorem Coherent.of_wantsTls (h : Coherent canStart es r) (hphase : r.phase = .reading idle)
    (he : Effect r.session e.frame e.outcome) (hwants : e.wantsTls = true) :
    canStart = true ∧ r.wire.secure = false ∧ es.countP (fun e => e.wantsTls) = 0 := by
  obtain hsame | ⟨hoffers, hplain, -⟩ := he.wants
  · have hnot := hsame.trans (h.wantsTls (not_closed_of_reading hphase))
    rw [Event.wantsTls, hnot] at hwants
    cases hwants
  · have hsecure := h.secure.symm.trans hplain
    exact ⟨h.offersTls.symm.trans hoffers, hsecure, h.plain idle hphase hsecure⟩

theorem Coherent.effect (h : Coherent canStart es r) (hphase : r.phase = .reading idle)
    (he : Effect r.session e.frame e.outcome) (calls : List Call) :
    Agrees canStart (es ++ [e]) { r with session := e.outcome.session, calls } where
  table := h.table
  hasTls := h.hasTls
  offersTls := he.offersTls.trans h.offersTls
  secure := (congrArg Peer.secure he.peer).trans h.secure
  once := by
    rw [List.countP_append, List.countP_singleton]
    split
    next hwants =>
      obtain ⟨-, -, hnone⟩ := h.of_wantsTls hphase he hwants
      exact Nat.le_of_eq (congrArg (· + 1) hnone)
    next => exact h.once

theorem Coherent.afterReply (h : Coherent canStart es r) (hphase : r.phase = .reading idle)
    (he : Effect r.session e.frame e.outcome) (calls : List Call) {wire : Wire}
    (hsecure : wire.secure = r.wire.secure) :
    Coherent canStart (es ++ [e])
      (Run.afterReply { r with session := e.outcome.session, calls, wire }) := by
  obtain ⟨htable, hhas, hoffers, hsame, honce⟩ := h.effect hphase he calls
  have hagrees : Agrees canStart (es ++ [e])
      { r with session := e.outcome.session, calls, wire } :=
    ⟨htable, hhas, hoffers, hsame.trans hsecure.symm, honce⟩
  have hcount : (es ++ [e]).countP (fun e => e.wantsTls)
      = es.countP (fun e => e.wantsTls) + if e.wantsTls then 1 else 0 := by
    rw [List.countP_append, List.countP_singleton]
  unfold Run.afterReply
  split
  next hwants =>
    have hwants : e.wantsTls = true := hwants
    obtain ⟨hcan, hplain, hnone⟩ := h.of_wantsTls hphase he hwants
    have hnotls : (!r.hasTls) = false := by rw [h.hasTls, hcan]; rfl
    have hwire : wire.secure = false := hsecure.trans hplain
    simp only [beginTls, hnotls, hwire, Bool.false_eq_true, if_false]
    refine ⟨⟨htable, hhas, hoffers, hagrees.secure, honce⟩, fun _ => rfl, ?_, fun _ => ?_, ?_⟩
    · rintro idle' ⟨⟩
    · rw [hcount, hnone, if_pos hwants]
      exact ⟨hwire, rfl⟩
    · rintro failure ⟨⟩
  next hwants =>
    have hwants : ¬ e.wantsTls = true := hwants
    refine Coherent.settleQuit ⟨hagrees, fun _ => Bool.eq_false_iff.2 hwants, ?_, ?_, ?_⟩
    · intro idle' hreading hplain
      rw [hcount, if_neg hwants]
      exact h.plain idle hphase (hsecure.symm.trans hplain)
    · intro hwaits
      rw [show r.phase = .handshake from hwaits] at hphase
      cases hphase
    · intro failure hclosed
      rw [show r.phase = .closed (.error failure) from hclosed] at hphase
      cases hphase

theorem Coherent.takeFrame (h : Coherent canStart es r) (hphase : r.phase = .reading idle)
    (houtcome : e.outcome = r.table.dispatch e.frame r.session) :
    Coherent canStart (es ++ [e]) (r.takeFrame e.frame) := by
  have he : Effect r.session e.frame e.outcome := by
    rw [houtcome, h.table]
    exact dispatch_effect r.session e.frame
  have hagrees := h.effect hphase he (r.calls ++ e.outcome.calls)
  unfold Run.takeFrame
  rw [← houtcome]
  dsimp only
  cases hanswer : e.outcome.answer with
  | error failure =>
      obtain ⟨detail, rfl⟩ := he.answer_error hanswer
      exact hagrees.fail rfl
  | ok reply =>
      exact hagrees.afterWrite reply fun wire hsecure => h.afterReply hphase he _ hsecure

end Frame

/-! ## Whole runs -/

theorem Coherent.move (h : Coherent canStart es r) (hmove : Move steps r r') :
    Coherent canStart es r' := by
  cases hmove with
  | stay => exact h
  | turn => exact h.of_wire rfl
  | writeError kind => exact h.of_wire rfl
  | wait idle' hphase => exact h.goes_on hphase rfl rfl rfl rfl rfl
  | read bs hphase => exact h.goes_on hphase rfl rfl rfl rfl rfl
  | decode hphase => exact h.goes_on hphase rfl rfl rfl rfl hphase
  | tooIdle => exact h.farewell tooIdle
  | readError kind => exact h.fail rfl
  | badFrame hphase hfails =>
      cases hfails with
      | lineTooLong => exact h.fail rfl
      | files => exact h.fail rfl
  | noTls cause =>
      refine h.closed r.wire rfl ?_
      rintro failure ⟨⟩
      rfl
  | lostTls hphase hwrite =>
      have hsecure := r.wire.secure_write []
      rw [hwrite] at hsecure
      refine h.closed _ hsecure ?_
      rintro failure ⟨⟩
      rfl
  | startTls hphase hwrite =>
      refine Coherent.settleQuit
        ⟨⟨h.table, h.hasTls, h.offersTls, rfl, h.once⟩, fun _ => ?_, ?_, nofun, nofun⟩
      · exact h.wantsTls (not_closed_of_handshake hphase)
      · rintro idle _ ⟨⟩

theorem Coherent.endOfInput (h : Coherent canStart es r) : Coherent canStart es r.endOfInput := by
  unfold Run.endOfInput
  split
  next => exact h.closed r.wire rfl nofun
  next =>
    refine h.closed r.wire rfl ?_
    rintro failure ⟨⟩
    rfl
  next => exact h

theorem coherent_start {c : Connection α δ} (h : c.Coherent) (greetingError : Option IoKind) :
    Coherent c.hasTls ([] : List (Entry α δ)) (start c greetingError) := by
  have hbegun : Coherent c.hasTls ([] : List (Entry α δ))
      { session := c.session, table := c.table, hasTls := c.hasTls,
        wire := { fault := greetingError } } :=
    ⟨⟨h.table, rfl, h.offersTls, h.secure, Nat.zero_le 1⟩, fun _ => h.wantsTls, fun _ _ _ => rfl,
      nofun, nofun⟩
  unfold start
  split
  next => exact hbegun.farewell tooMany
  next =>
    exact hbegun.afterWrite (f := fun r => r) _ fun wire hsecure =>
      hbegun.goes_on rfl rfl rfl rfl hsecure rfl

end Run

/-- However a connection was put together from the commands of the receiver, and whatever the client
does, the run never fails for a state that it should not be in or for its settings.  At every moment
the session knows whether TLS runs and whether it can be started.  No wish for TLS is left between
frames.  There is one at most, and a run that does not use TLS yet waits for it only after that. -/
theorem tls_state_agrees [Authenticator α] [Handler δ] (c : Connection α δ) (h : c.Assembled)
    (client : Client) :
    let t := c.recorded client
    let report := c.run client
    (∀ detail, report.result ≠ .error (.protocol detail) ∧
      report.result ≠ .error (.config detail)) ∧
    (∀ r ∈ t.moments,
      r.session.peer.secure = r.wire.secure ∧ r.hasTls = c.hasTls ∧
      r.session.offersTls = c.hasTls ∧ (¬ r.IsClosed → r.session.wantsTls = false) ∧
      (r.phase = .handshake → r.wire.secure = false ∧ ∃ e ∈ t.entries, e.wantsTls = true)) ∧
    t.entries.countP (fun e => e.wantsTls) ≤ 1 := by
  intro t report
  have hkeeps : Recording.Invariant client.steps (Run.Coherent (α := α) (δ := δ) c.hasTls) := by
    refine ⟨?_, ?_⟩
    · intro es r r' hr hmove
      exact hr.move hmove
    · intro es r idle e hr hphase _ houtcome
      exact hr.takeFrame hphase houtcome
  have hholds := hkeeps.recorded c (Run.coherent_start h.coherent client.greetingError)
  refine ⟨fun detail => ?_, fun r hr => ?_, hholds.now.once⟩
  · have hended := hholds.now.endOfInput
    have hphase := c.phase_endOfInput client
    constructor
    · intro hresult
      have hexternal := hended.result (.protocol detail) (hphase.trans (congrArg _ hresult))
      cases hexternal
    · intro hresult
      have hexternal := hended.result (.config detail) (hphase.trans (congrArg _ hresult))
      cases hexternal
  · obtain ⟨es, hes, hcoherent⟩ := hholds.moments r hr
    refine ⟨hcoherent.secure, hcoherent.hasTls, hcoherent.offersTls, hcoherent.wantsTls, ?_⟩
    intro hwaits
    obtain ⟨hplain, hone⟩ := hcoherent.waits hwaits
    obtain ⟨e, he, hwants⟩ := List.countP_pos_iff.1 (Nat.lt_of_lt_of_eq Nat.zero_lt_one hone.symm)
    exact ⟨hplain, e, hes.subset he, hwants⟩

/-- A client starts TLS, and asks for it once more over TLS. -/
theorem tls_state_agrees_asked_twice :
    let plain : Connection Auth.Open (Delivery.Fanout Unit) :=
      .make {} .builtin {} { listeners := [], world := () } false none
    let c := plain.withTls.withPlace 1
    let client : Client :=
      { steps :=
          [.send (Text.encode "STARTTLS\r\nSTARTTLS\r\n"), .startTls .proper,
            .send (Text.encode "STARTTLS\r\nQUIT\r\n")] }
    let t := c.recorded client
    let report := c.run client
    c.Assembled ∧
    report.transcript.map Text.decode
      = ["220 localhost ESMTP Mailgate\r\n", "220 Ready to start TLS\r\n", "",
        "454 TLS not available due to temporary reason: TLS already active\r\n221 Bye\r\n"] ∧
    (∀ detail, report.result ≠ .error (.protocol detail) ∧
      report.result ≠ .error (.config detail)) ∧
    (∀ r ∈ t.moments,
      r.session.peer.secure = r.wire.secure ∧ r.hasTls = true ∧ r.session.offersTls = true ∧
      (¬ r.IsClosed → r.session.wantsTls = false) ∧
      (r.phase = .handshake → r.wire.secure = false ∧ ∃ e ∈ t.entries, e.wantsTls = true)) ∧
    t.entries.countP (fun e => e.wantsTls) ≤ 1 := by
  intro plain c client t report
  have hassembled : c.Assembled := .withPlace 1 (.withTls (.make {} _ _ none))
  exact ⟨hassembled, by decide +kernel, tls_state_agrees c hassembled client⟩

end SmtpReceiver
