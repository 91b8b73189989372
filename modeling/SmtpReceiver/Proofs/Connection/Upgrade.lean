import SmtpReceiver.Proofs.Auth.Gate
import SmtpReceiver.Proofs.Connection.Past

/-!
# What starting TLS forgets

A session in which nothing was said is `Untouched`.  A later one is `Since` it:
the settings, the listeners and the address of the client are the same, and the
authenticator is one that can be reached.  `STARTTLS` takes such a session back
to the untouched one, for the authenticator is forgetful.

So the run that starts TLS is that of a new connection over TLS, with a past
(`Upgraded.eq`).  What it does then depends on nothing that was said before
(`startTls_forgets`).  Only the application may remember, and only through
listeners.
-/

namespace SmtpReceiver

open Auth (Authenticator Forgetful Open PlainLogin Reachable Validator)
open Delivery (Fanout Handler Listener)
open Framing (Frame)
open Text (Base64 Bytes)

/-! ## Sessions and those they began as -/

namespace Session

variable {α ω : Type}

/-- The same session, with another state of the application. -/
def inWorld (s : Session α (Fanout ω)) (world : ω) : Session α (Fanout ω) :=
  { s with delivery := { s.delivery with world } }

/-- Nothing was said in the session, and it is not secure. -/
structure Untouched (s : Session α (Fanout ω)) : Prop extends s.New where
  secure : s.peer.secure = false
  wantsTls : s.wantsTls = false
  sender? : s.delivery.sender? = none
  bindings : s.delivery.bindings = []

/-- What a session has kept of the one it began as. -/
structure Since [Authenticator α] (s₀ s : Session α (Fanout ω)) : Prop where
  settings : s.settings = s₀.settings
  offersTls : s.offersTls = s₀.offersTls
  peer : { s.peer with user := none, secure := false } = s₀.peer
  auth : Reachable s₀.auth s.auth
  listeners : s.delivery.listeners = s₀.delivery.listeners

end Session

section Effects

variable {α ω : Type} [Authenticator α] {frame : Frame} {s₀ s : Session α (Fanout ω)}
  {o : Outcome α (Fanout ω)}

theorem Effect.listeners (he : Effect s frame o) :
    o.session.delivery.listeners = s.delivery.listeners := by
  cases he with
  | sender address => rw [(acceptSender_asked s address).session]; rfl
  | recipient address => rw [(acceptRecipient_asked s address).session]; rfl
  | exchange text => rw [(exchange_exchanged s text).session]
  | _ => rfl

namespace Session.Since

theorem of_inWorld (h : s.Untouched) (world : ω) : s.Since (s.inWorld world) where
  settings := rfl
  offersTls := rfl
  peer := by
    show ({ s.peer with user := none, secure := false } : Peer) = s.peer
    rw [← h.user, ← h.secure]
  auth := .start
  listeners := rfl

theorem effect (h : s₀.Since s) (he : Effect s frame o) : s₀.Since o.session where
  settings := he.settings.trans h.settings
  offersTls := he.offersTls.trans h.offersTls
  peer := by rw [he.peer]; exact h.peer
  auth := he.reachable h.auth
  listeners := he.listeners.trans h.listeners

/-- Once the session has started TLS, it is over TLS the same. -/
theorem secured (h : s₀.Since s) :
    s₀.Since { s with peer := { s.peer with secure := true } } := by
  obtain ⟨hsettings, hoffers, hpeer, hauth, hlisteners⟩ := h
  exact ⟨hsettings, hoffers, hpeer, hauth, hlisteners⟩

/-- What `STARTTLS` makes of a session is the one it began as. -/
theorem forget (h : s₀.Since s) (h₀ : s₀.Untouched) (hforgets : Forgetful s₀.auth)
    (hactive : s.progress.active = true) (hsecure : s.peer.secure = false) :
    ({ s.forget.next with wantsTls := false } : Session α (Fanout ω))
      = s₀.inWorld s.delivery.world := by
  have hprogress : s.progress.forget = s₀.progress := by
    rw [h₀.progress, Progress.forget, hactive]
  have hpeer : ({ s.peer with user := none } : Peer) = s₀.peer := by
    rw [← h.peer, ← hsecure]
  have hdelivery : Handler.reset s.delivery = { s₀.delivery with world := s.delivery.world } := by
    show Fanout.mk _ _ _ _ = Fanout.mk _ _ _ _
    rw [h.listeners, h₀.sender?, h₀.bindings]
  simp only [Session.forget, inWorld, Session.mk.injEq]
  exact ⟨h.settings, hprogress, hpeer, hforgets.reset h.auth, hdelivery, h.offersTls,
    h₀.wantsTls.symm, h₀.pending.symm⟩

end Session.Since

end Effects

/-! ## Runs and the sessions they began with -/

namespace Run

variable {α δ ω : Type}

theorem fail_closed (r : Run α δ) (failure : Failure) :
    ∃ result, (r.fail failure).phase = .closed result := by
  unfold fail
  split
  next => exact ⟨_, rfl⟩
  next => exact ⟨_, rfl⟩

theorem farewell_closed (r : Run α δ) (reply : Reply) :
    ∃ result, (r.farewell reply).phase = .closed result := by
  unfold farewell
  split
  next => exact ⟨_, rfl⟩
  next => exact ⟨_, rfl⟩

/-- The run reads, and its session goes on. -/
structure Reads [Authenticator α] (s₀ : Session α (Fanout ω)) (r : Run α (Fanout ω)) : Prop where
  table : r.table = .builtin
  hasTls : r.hasTls = true
  since : s₀.Since r.session
  active : r.session.progress.active = true
  wantsTls : r.session.wantsTls = false
  shut : r.wire.shut = false

/-- The run waits for TLS to start, and has forgotten everything that was said. -/
structure Waits [Authenticator α] (s₀ : Session α (Fanout ω)) (r : Run α (Fanout ω)) : Prop where
  table : r.table = .builtin
  hasTls : r.hasTls = true
  session : r.session = s₀.inWorld r.session.delivery.world
  decoder : r.decoder = {}
  buffer : r.buffer = []
  shut : r.wire.shut = false

/-- What is known of a run in each of its phases. -/
inductive Known [Authenticator α] (s₀ : Session α (Fanout ω)) (r : Run α (Fanout ω)) : Prop where
  | reading (idle : Nat) : r.phase = .reading idle → Reads s₀ r → Known s₀ r
  | handshake : r.phase = .handshake → Waits s₀ r → Known s₀ r
  | closed (result : Except Failure Unit) : r.phase = .closed result → Known s₀ r

section Known

variable [Authenticator α] {s₀ : Session α (Fanout ω)} {r : Run α (Fanout ω)} {idle : Nat}

theorem Known.of_fail (r : Run α (Fanout ω)) (failure : Failure) : Known s₀ (r.fail failure) := by
  obtain ⟨result, hclosed⟩ := r.fail_closed failure
  exact .closed result hclosed

theorem Known.of_farewell (r : Run α (Fanout ω)) (reply : Reply) : Known s₀ (r.farewell reply) := by
  obtain ⟨result, hclosed⟩ := r.farewell_closed reply
  exact .closed result hclosed

/-- The decoder, the buffer and what was written do not matter. -/
theorem Reads.congr {r' : Run α (Fanout ω)} (h : Reads s₀ r) (htable : r'.table = r.table)
    (hhas : r'.hasTls = r.hasTls) (hsession : r'.session = r.session)
    (hshut : r'.wire.shut = r.wire.shut) : Reads s₀ r' where
  table := htable.trans h.table
  hasTls := hhas.trans h.hasTls
  since := hsession ▸ h.since
  active := hsession ▸ h.active
  wantsTls := hsession ▸ h.wantsTls
  shut := hshut.trans h.shut

/-- A reply is followed by the next frame, by the end or by the wait for TLS. -/
theorem Reads.afterReply (h : Reads s₀ r) (h₀ : s₀.Untouched) (hforgets : Forgetful s₀.auth)
    (hreading : r.phase = .reading idle) {frame : Frame} {o : Outcome α (Fanout ω)}
    (he : Effect r.session frame o) {wire : Wire} (hshut : wire.shut = false) (calls : List Call) :
    Known s₀ (Run.afterReply { r with session := o.session, wire, calls }) := by
  obtain hwants | ⟨-, hsecure, hsession⟩ := he.wants
  · rw [h.wantsTls] at hwants
    simp only [Run.afterReply, hwants, Bool.false_eq_true, if_false, settleQuit]
    split
    next hactive =>
      exact .reading idle hreading ⟨h.table, h.hasTls, h.since.effect he, hactive, hwants, hshut⟩
    next => exact .closed _ rfl
  · have hforgot := h.since.forget h₀ hforgets h.active hsecure
    simp only [Run.afterReply, hsession, if_true, beginTls, h.hasTls, Bool.not_true,
      Bool.false_eq_true, if_false]
    split
    next => exact .closed _ rfl
    next => exact .handshake rfl ⟨h.table, rfl, hforgot, rfl, rfl, hshut⟩

theorem Reads.takeFrame (h : Reads s₀ r) (h₀ : s₀.Untouched) (hforgets : Forgetful s₀.auth)
    (hreading : r.phase = .reading idle) (frame : Frame) : Known s₀ (r.takeFrame frame) := by
  have he := dispatch_effect r.session frame
  rw [← h.table] at he
  unfold Run.takeFrame
  generalize r.table.dispatch frame r.session = o at he
  obtain ⟨session, answer, calls⟩ := o
  cases answer with
  | error failure => exact .of_fail _ failure
  | ok reply =>
      have hshut := (r.wire.shut_write reply.wire).trans h.shut
      simp only [write]
      generalize r.wire.write reply.wire = p at hshut
      obtain ⟨cause?, wire⟩ := p
      cases cause? with
      | some cause => exact .closed _ rfl
      | none => exact h.afterReply h₀ hforgets hreading he hshut _

/-- What is written, or fails to be, is not part of what is known, as long as nothing is closed. -/
theorem Known.of_wire (h : Known s₀ r) {wire : Wire} (hshut : wire.shut = r.wire.shut) :
    Known s₀ { r with wire } := by
  cases h with
  | reading idle hphase h => exact .reading idle hphase (h.congr rfl rfl rfl hshut)
  | handshake hphase h =>
      obtain ⟨htable, hhas, hsession, hdecoder, hbuffer, hopen⟩ := h
      exact .handshake hphase ⟨htable, hhas, hsession, hdecoder, hbuffer, hshut.trans hopen⟩
  | closed result hphase => exact .closed result hphase

theorem Known.elapse (h : Known s₀ r) (milliseconds : Nat) :
    Known s₀ (r.elapse milliseconds) := by
  cases h with
  | reading idle hphase h =>
      simp only [Run.elapse, hphase]
      split
      next => exact .of_farewell _ _
      next => exact .reading _ rfl (h.congr rfl rfl rfl rfl)
  | handshake hphase h =>
      simp only [Run.elapse, hphase]
      exact .handshake hphase h
  | closed result hphase =>
      simp only [Run.elapse, hphase]
      exact .closed result hphase

theorem Known.readFailed (h : Known s₀ r) (kind : IoKind) : Known s₀ (r.readFailed kind) := by
  cases h with
  | reading idle hphase h => simp only [Run.readFailed, hphase]; exact .of_fail _ _
  | handshake hphase h => simp only [Run.readFailed, hphase]; exact .closed _ rfl
  | closed result hphase => simp only [Run.readFailed, hphase]; exact .closed result hphase

section Steps

variable (h₀ : s₀.Untouched) (hforgets : Forgetful s₀.auth)

include h₀ hforgets

theorem Known.answerFrames (h : Known s₀ r) : Known s₀ r.answerFrames := by
  have hreads {r : Run α (Fanout ω)} {idle : Nat} (hreading : r.phase = .reading idle)
      (h : Known s₀ r) : Reads s₀ r := by
    cases h with
    | reading idle' _ h => exact h
    | handshake hphase => rw [hphase] at hreading; cases hreading
    | closed result hphase => rw [hphase] at hreading; cases hreading
  refine answerFrames_keeps ?_ ?_ ?_ h
  · intro r idle hreading h
    exact .reading idle hreading ((hreads hreading h).congr rfl rfl rfl rfl)
  · intro r idle frame hreading h
    exact (hreads hreading h).takeFrame h₀ hforgets hreading frame
  · intro r idle failure _ _
    exact .of_fail r failure

theorem Known.takeRead (h : Known s₀ r) (bs : Bytes) : Known s₀ (r.takeRead bs) := by
  cases h with
  | reading idle hphase h =>
      simp only [Run.takeRead, hphase]
      exact Known.answerFrames h₀ hforgets (.reading 0 rfl (h.congr rfl rfl rfl rfl))
  | handshake hphase h =>
      simp only [Run.takeRead, hphase]
      exact .closed _ rfl
  | closed result hphase =>
      simp only [Run.takeRead, hphase]
      exact .closed result hphase

theorem Known.takeReads (h : Known s₀ r) (reads : List Bytes) :
    Known s₀ (reads.foldl Run.takeRead r) := by
  induction reads generalizing r with
  | nil => exact h
  | cons bs reads ih => exact ih (h.takeRead h₀ hforgets bs)

omit hforgets in
/-- When TLS has started, the session goes on as one in which nothing was said. -/
theorem Known.endHandshake (h : Known s₀ r) (handshake : Handshake) :
    Known s₀ (r.endHandshake handshake) := by
  cases h with
  | reading idle hphase h =>
      simp only [Run.endHandshake, hphase]
      exact .reading idle hphase h
  | closed result hphase =>
      simp only [Run.endHandshake, hphase]
      exact .closed result hphase
  | handshake hphase h =>
      cases handshake with
      | fails cause => simp only [Run.endHandshake, hphase]; exact .closed _ rfl
      | proper =>
          have hshut := (r.wire.shut_write []).trans h.shut
          simp only [Run.endHandshake, hphase]
          generalize r.wire.write [] = p at hshut
          obtain ⟨cause?, wire⟩ := p
          cases cause? with
          | some cause => exact .closed _ rfl
          | none =>
              have hactive : r.session.progress.active = true := by
                rw [h.session]
                exact congrArg Progress.active h₀.progress
              have hwants : r.session.wantsTls = false := by
                rw [h.session]
                exact h₀.wantsTls
              have hsince : s₀.Since r.session := by
                rw [h.session]
                exact .of_inWorld h₀ _
              simp only [secured, settleQuit, hactive, if_true]
              exact .reading 0 rfl ⟨h.table, h.hasTls, hsince.secured, hactive, hwants, hshut⟩

theorem Known.takeStep (h : Known s₀ r) (step : ClientStep) : Known s₀ (r.takeStep step) := by
  have hturned : Known s₀ { r with wire := r.wire.turn } := h.of_wire rfl
  cases step with
  | send bs => exact hturned.takeReads h₀ hforgets _
  | wait milliseconds => exact hturned.elapse milliseconds
  | readError kind => exact hturned.readFailed kind
  | writeError kind => exact hturned.of_wire rfl
  | startTls handshake => exact hturned.endHandshake h₀ handshake

end Steps

theorem Known.start {c : Connection α (Fanout ω)} (h₀ : c.session.Untouched)
    (htable : c.table = .builtin) (hhas : c.hasTls = true) (greetingError : Option IoKind) :
    Known c.session (Run.start c greetingError) := by
  have hactive : c.session.progress.active = true := congrArg Progress.active h₀.progress
  simp only [Run.start]
  split
  next => exact .of_farewell _ _
  next =>
    simp only [write]
    have hshut := Wire.shut_write { fault := greetingError }
      (Reply.line .ready c.session.settings.greeting).wire
    generalize Wire.write { fault := greetingError } _ = p at hshut
    obtain ⟨cause?, wire⟩ := p
    cases cause? with
    | some cause => exact .closed _ rfl
    | none =>
        exact .reading 0 rfl
          ⟨htable, hhas, .of_inWorld h₀ c.session.delivery.world, hactive, h₀.wantsTls, hshut⟩

end Known

variable [Authenticator α]

/-- The run after steps of the client, of which it takes no more once it is closed. -/
def through : List ClientStep → Run α δ → Run α δ
  | [], r => r
  | step :: steps, r =>
    match r.phase with
    | .closed _ => r
    | _ => through steps (r.takeStep step)

theorem Known.through {s₀ : Session α (Fanout ω)} (h₀ : s₀.Untouched)
    (hforgets : Forgetful s₀.auth) (steps : List ClientStep) {r : Run α (Fanout ω)}
    (h : Known s₀ r) : Known s₀ (Run.through steps r) := by
  induction steps generalizing r with
  | nil => exact h
  | cons step steps ih =>
      rw [Run.through]
      split
      next => exact h
      next => exact ih (h.takeStep h₀ hforgets step)

/-- A run that is not closed goes on with the steps that are left. -/
theorem takeSteps_append (more : List ClientStep) {steps : List ClientStep} {r : Run α δ}
    (hopen : ∀ result, (through steps r).phase ≠ .closed result) :
    takeSteps (steps ++ more) r = takeSteps more (through steps r) := by
  induction steps generalizing r with
  | nil => rfl
  | cons step steps ih =>
      simp only [through, List.cons_append, takeSteps] at hopen ⊢
      cases hphase : r.phase with
      | closed result =>
          simp only [hphase] at hopen
          exact absurd rfl (hopen result)
      | reading idle =>
          simp only [hphase] at hopen
          exact ih hopen
      | handshake =>
          simp only [hphase] at hopen
          exact ih hopen

/-- A run that has waited for TLS and reads is as it was, but over TLS. -/
theorem takeStep_startTls {r : Run α δ} (hdue : r.phase = .handshake)
    (hreading : (r.takeStep (.startTls .proper)).phase = .reading 0) :
    r.takeStep (.startTls .proper)
      = secured { r with wire := { r.wire.turn with fault := none } } := by
  cases hfault : r.wire.fault with
  | some kind =>
      simp only [takeStep, endHandshake, hdue, Wire.turn, Wire.write, hfault] at hreading
      cases hreading
  | none =>
      cases hactive : r.session.progress.active with
      | false =>
          simp only [takeStep, endHandshake, hdue, Wire.turn, Wire.write, hfault, secured,
            settleQuit, hactive, Bool.false_eq_true, if_false] at hreading
          cases hreading
      | true =>
          simp only [takeStep, endHandshake, hdue, Wire.turn, Wire.write, hfault, secured,
            settleQuit, hactive, if_true, List.nil_append]

end Run

/-! ## Connections -/

/-- The client starts TLS after its steps, and goes on with others. -/
def Client.upgrading (client : Client) (more : List ClientStep) : Client :=
  { client with steps := client.steps ++ .startTls .proper :: more }

namespace Connection

variable {α δ ω : Type} [Authenticator α]

/-- The run of a connection after the steps of a client. -/
def after (c : Connection α δ) (client : Client) : Run α δ :=
  Run.through client.steps (Run.start c client.greetingError)

/-- After the steps of the client TLS was due, and has just been started. -/
structure Upgraded (c : Connection α δ) (client : Client) (r : Run α δ) : Prop where
  due : (c.after client).phase = .handshake
  started : (c.after client).takeStep (.startTls .proper) = r
  reading : r.phase = .reading 0

omit [Authenticator α] in
/-- A new connection that runs over TLS. -/
def overTls (c : Connection α (Fanout ω)) (world : ω) : Run α (Fanout ω) :=
  { session :=
      { c.session with
        delivery := { c.session.delivery with world }
        peer := { c.session.peer with secure := true } }
    table := c.table
    hasTls := c.hasTls
    wire := { secure := true } }

section Upgraded

variable {c : Connection α (Fanout ω)} {client : Client} {r : Run α (Fanout ω)}
  (h₀ : c.session.Untouched) (hforgets : Forgetful c.session.auth) (htable : c.table = .builtin)
  (hhas : c.hasTls = true)

include h₀ hforgets htable hhas

/-- Where TLS has just started, the run is that of a new connection over TLS, with a past. -/
theorem Upgraded.eq (h : c.Upgraded client r) :
    r = (c.overTls r.session.delivery.world).behind (c.after client).past := by
  have hknown : Run.Known c.session (c.after client) :=
    Run.Known.through h₀ hforgets client.steps (.start h₀ htable hhas client.greetingError)
  obtain ⟨hdue, rfl, hreading⟩ := h
  generalize c.after client = past at hknown hdue hreading
  rw [Run.takeStep_startTls hdue hreading]
  cases hknown with
  | reading idle hphase => rw [hphase] at hdue; cases hdue
  | closed result hphase => rw [hphase] at hdue; cases hdue
  | handshake _ hwaits =>
      obtain ⟨hbuiltin, hhas', hsession, hdecoder, hbuffer, hshut⟩ := hwaits
      have hsecured {s : Session α (Fanout ω)} {world : ω} (h : s = c.session.inWorld world) :
          { s with peer := { s.peer with secure := true } } = (c.overTls world).session := by
        rw [h]
        rfl
      simp only [Run.secured, overTls, Run.behind, Run.past, Wire.behind, Wire.turn, Run.mk.injEq,
        Wire.mk.injEq]
      exact ⟨hsecured hsession, hbuiltin.trans htable.symm, hhas'.trans hhas.symm, hdecoder, hbuffer,
        ⟨rfl, trivial, trivial, hshut⟩, trivial, (List.append_nil _).symm⟩

/-- What such a run does with more steps is what a new connection over TLS does with them. -/
theorem Upgraded.run_eq (h : c.Upgraded client r) (more : List ClientStep) :
    c.run (client.upgrading more)
      = ((c.overTls r.session.delivery.world).report more).behind (c.after client).past := by
  have hopen : ∀ result, (c.after client).phase ≠ .closed result := by
    intro result
    rw [h.due]
    exact nofun
  have hsteps : Run.takeSteps (client.steps ++ .startTls .proper :: more)
      (Run.start c client.greetingError) = Run.takeSteps more r := by
    rw [Run.takeSteps_append _ hopen]
    show Run.takeSteps (.startTls .proper :: more) (c.after client) = _
    rw [Run.takeSteps, h.started]
    split
    next result hclosed => exact absurd hclosed (hopen result)
    next => rfl
  have hreport : c.run (client.upgrading more) = r.report more := by
    show Run.report (client.steps ++ .startTls .proper :: more)
      (Run.start c client.greetingError) = _
    rw [Run.report, hsteps]
    rfl
  rw [hreport, ← Run.report_behind _ more (List.cons_ne_nil _ _), ← h.eq h₀ hforgets htable hhas]

end Upgraded

end Connection

/-- Once TLS has started, a connection is a new one but for being secure, and whatever the client
sends then has the same answers and makes the same calls after any two pasts.  What the application
remembers of them is its own matter, and is taken to be the same. -/
theorem startTls_forgets [Base64] {ω : Type} (settings : Settings) (v? : Option Validator)
    (listeners : List (Listener ω)) (world : ω) (remote : Option String) (place : Option Nat) :
    let c : Connection (Open ⊕ PlainLogin) (Fanout ω) :=
      { Connection.make settings .builtin (Auth.standard v?) { listeners, world } true remote with
        place }
    (∀ {client r}, c.Upgraded client r →
      r.session =
          { settings
            auth := Auth.standard v?
            delivery := { listeners, world := r.session.delivery.world }
            peer := { remote, secure := true }
            offersTls := true } ∧
        r.decoder = {} ∧ r.buffer = []) ∧
    ∀ {client client' r r'}, c.Upgraded client r → c.Upgraded client' r' →
      r.session.delivery.world = r'.session.delivery.world → ∀ more,
        ∃ later : Report,
          c.run (client.upgrading more) = later.behind (c.after client).past ∧
          c.run (client'.upgrading more) = later.behind (c.after client').past := by
  intro c
  have h₀ : c.session.Untouched := ⟨⟨rfl, rfl, rfl⟩, rfl, rfl, rfl, rfl⟩
  have hforgets : Forgetful c.session.auth := Auth.standard_forgetful v?
  have htable : c.table = .builtin := by simp only [c, Connection.make]
  have hhas : c.hasTls = true := rfl
  refine ⟨?_, ?_⟩
  · intro client r h
    have heq := h.eq h₀ hforgets htable hhas
    exact ⟨congrArg Run.session heq, congrArg Run.decoder heq, congrArg Run.buffer heq⟩
  · intro client client' r r' h h' hworld more
    refine ⟨(c.overTls r.session.delivery.world).report more, ?_, ?_⟩
    · exact h.run_eq h₀ hforgets htable hhas more
    · rw [hworld]
      exact h'.run_eq h₀ hforgets htable hhas more

/-- One client says nothing before TLS.  The other logs in, and sends a line and the beginning of
another together with `STARTTLS`. -/
theorem startTls_forgets_pipelined :
    let v : Validator := fun user password => user == "u" && password == "p"
    let listeners : List (Listener Unit) := [.collector 7 .anyone]
    let c : Connection (Open ⊕ PlainLogin) (Fanout Unit) :=
      { Connection.make {} .builtin (Auth.standard (some v)) { listeners, world := () } true none with
        place := some 1 }
    let client : Client := { steps := [.send (Text.encode "STARTTLS\r\n")] }
    let client' : Client :=
      { steps :=
          [.send (Text.encode "AUTH PLAIN AHUAcA==\r\n"),
            .send (Text.encode "STARTTLS\r\nNOOP\r\nQU")] }
    let r := (c.after client).takeStep (.startTls .proper)
    let r' := (c.after client').takeStep (.startTls .proper)
    let more : List ClientStep := [.send (Text.encode "EHLO a\r\nMAIL FROM:<a@b>\r\n")]
    c.Upgraded client r ∧ c.Upgraded client' r' ∧
      r.session.delivery.world = r'.session.delivery.world ∧
      ∃ later : Report,
        c.run (client.upgrading more) = later.behind (c.after client).past ∧
        c.run (client'.upgrading more) = later.behind (c.after client').past := by
  intro v listeners c client client' r r' more
  have h : c.Upgraded client r := ⟨by decide +kernel, rfl, by decide +kernel⟩
  have h' : c.Upgraded client' r' := ⟨by decide +kernel, rfl, by decide +kernel⟩
  have hforgets := startTls_forgets {} (some v) listeners () none (some 1)
  have hworld : r.session.delivery.world = r'.session.delivery.world := Subsingleton.elim _ _
  exact ⟨h, h', hworld, hforgets.2 h h' hworld more⟩

end SmtpReceiver
