import SmtpReceiver.Proofs.Connection.Reference

/-!
# A connection follows the reference session

A run sees the bytes of the client in reads, and keeps a decoder and a buffer
between them.  It `Tells` an account, as a function of the bytes that are still to
come.  In the middle of a frame that is the account of the reference session for
the bytes of this frame and those to come, after what was written already.

Reading bytes moves them from what is to come to what has come, and the account
stays the same (`Tells.takeRead`).  So the account of a whole run is one of all
bytes of the client, wherever the reads were cut (`run_follows_course`).
-/

namespace SmtpReceiver

open Auth (Authenticator)
open Delivery (Handler)
open Framing
open Text (Bytes)

/-! ## The transport -/

namespace Wire

def written (w : Wire) : Bytes := w.transcript.flatten

theorem written_turn (w : Wire) : w.turn.written = w.written := by
  simp [written, transcript, turn]

theorem write_of_sound {w : Wire} (h : w.fault = none) (bs : Bytes) :
    ∃ w', w.write bs = (none, w') ∧ w'.fault = none ∧ w'.written = w.written ++ bs := by
  unfold write
  rw [h]
  refine ⟨_, rfl, rfl, ?_⟩
  cases hparts : w.parts with
  | nil => simp [written, transcript, hparts]
  | cons p ps => simp [written, transcript, hparts]

/-- A fault is that of one write. -/
theorem fault_write (w : Wire) (bs : Bytes) : (w.write bs).2.fault = none := by
  unfold write
  split
  next => rfl
  next hfault => exact hfault

theorem fault_of_failure {w : Wire} {bs : Bytes} {cause : IoFailure}
    (h : (w.write bs).1 = some cause) : w.fault = some cause.kind := by
  unfold write at h
  split at h
  next hfault => cases h; exact hfault
  next => cases h

theorem written_write (w : Wire) (bs : Bytes) :
    (w.write bs).2.written = w.written ++ if w.fault = none then bs else [] := by
  cases hfault : w.fault with
  | none =>
      obtain ⟨w', hwrite, -, hwritten⟩ := write_of_sound hfault bs
      rw [hwrite, hwritten]
      rfl
  | some kind =>
      simp only [write, hfault, reduceCtorEq, if_false, List.append_nil]
      rfl

/-- Writing nothing shows only whether the transport has failed. -/
theorem written_write_nil (w : Wire) : (w.write []).2.written = w.written := by
  rw [written_write, ite_self, List.append_nil]

theorem shut_write (w : Wire) (bs : Bytes) : (w.write bs).2.shut = w.shut := by
  unfold write
  split
  next => rfl
  next => rfl

theorem secure_write (w : Wire) (bs : Bytes) : (w.write bs).2.secure = w.secure := by
  unfold write
  split
  next => rfl
  next => rfl

end Wire

/-! ## Decoding -/

namespace Run

variable {α δ : Type} [Authenticator α]

/-- What decoding the buffer gives. -/
def decoded (r : Run α δ) : Decoder.Decoded :=
  r.decoder.decode r.session.settings r.session.progress.expectsMessage r.buffer

theorem answerFrames_of_reading {r : Run α δ} {idle : Nat} (hreading : r.phase = .reading idle) :
    let r' := { r with decoder := r.decoded.decoder, buffer := r.decoded.rest }
    r.answerFrames
      = match r.decoded.result with
        | .ok none => r'
        | .ok (some frame) => (r'.takeFrame frame).answerFrames
        | .error failure => r'.fail failure := by
  rw [answerFrames]
  split
  next =>
    dsimp only
    split
    next hr => simp only [decoded, hr]
    next frame hr => simp only [decoded, hr]
    next failure hr => simp only [decoded, hr]
  next hne => exact absurd hreading (hne idle)

theorem answerFrames_of_not_reading {r : Run α δ} (h : ∀ idle, r.phase ≠ .reading idle) :
    r.answerFrames = r := by
  rw [answerFrames]
  split
  next idle hreading => exact absurd hreading (h idle)
  next => rfl

theorem answerFrames_of_closed {r : Run α δ} {result : Except Failure Unit}
    (h : r.phase = .closed result) : r.answerFrames = r :=
  answerFrames_of_not_reading fun idle => by rw [h]; exact nofun

/-- The run when the buffer was decoded up to the next frame. -/
def afterDecoding (r : Run α δ) : Run α δ :=
  { r with decoder := r.decoded.decoder, buffer := r.decoded.rest }

/-- A frame that was decoded is answered before the others.  The induction is on the length of the
buffer. -/
theorem answerFrames_induction {P : Run α δ → Run α δ → Prop}
    (hstop : ∀ {r}, (∀ idle, r.phase ≠ .reading idle) → P r r)
    (hnone : ∀ {r idle}, r.phase = .reading idle → r.decoded.result = .ok none →
      P r r.afterDecoding)
    (hframe : ∀ {r idle frame}, r.phase = .reading idle → r.decoded.result = .ok (some frame) →
      P (r.afterDecoding.takeFrame frame) (r.afterDecoding.takeFrame frame).answerFrames →
        P r (r.afterDecoding.takeFrame frame).answerFrames)
    (hfail : ∀ {r idle failure}, r.phase = .reading idle → r.decoded.result = .error failure →
      P r (r.afterDecoding.fail failure))
    (r : Run α δ) : P r r.answerFrames := by
  induction hn : r.buffer.length using Nat.strongRecOn generalizing r with
  | _ n ih =>
      by_cases hreading : ∃ idle, r.phase = .reading idle
      case neg =>
        rw [not_exists] at hreading
        rw [answerFrames_of_not_reading hreading]
        exact hstop hreading
      case pos =>
        obtain ⟨idle, hreading⟩ := hreading
        rw [answerFrames_of_reading hreading]
        cases hresult : r.decoded.result with
        | error failure => exact hfail hreading hresult
        | ok frame? =>
            cases frame? with
            | none => exact hnone hreading hresult
            | some frame =>
                have hlt : r.decoded.rest.length < n := hn ▸ Decoder.length_rest_decode_lt hresult
                have hle := length_buffer_takeFrame_le r.afterDecoding frame
                exact hframe hreading hresult (ih _ (Nat.lt_of_le_of_lt hle hlt) _ rfl)

/-- What decoding, one frame and a failure keep is kept by answering all frames. -/
theorem answerFrames_keeps {P : Run α δ → Prop}
    (hdecode : ∀ {r idle}, r.phase = .reading idle → P r → P r.afterDecoding)
    (hframe : ∀ {r idle} frame, r.phase = .reading idle → P r → P (r.takeFrame frame))
    (hfail : ∀ {r idle} failure, r.phase = .reading idle → P r → P (r.fail failure))
    {r : Run α δ} (h : P r) : P r.answerFrames := by
  refine answerFrames_induction (P := fun r out => P r → P out) ?_ ?_ ?_ ?_ r h
  · intro r _ h
    exact h
  · intro r idle hreading _ h
    exact hdecode hreading h
  · intro r idle frame hreading _ hrest h
    exact hrest (hframe frame hreading (hdecode hreading h))
  · intro r idle failure hreading _ h
    exact hfail failure hreading (hdecode hreading h)

/-! ## One frame -/

omit [Authenticator α] in
/-- A failure that is no disconnect is told to the client. -/
theorem fail_of_sound {r : Run α δ} {failure : Failure} (hsound : r.wire.fault = none)
    (htold : failure.isDisconnect = false) :
    ∃ wire, wire.written = r.wire.written ++ failure.reply.wire ∧
      r.fail failure = { r with wire, phase := .closed (.error failure) } := by
  obtain ⟨wire, hwrite, -, hwritten⟩ := Wire.write_of_sound hsound failure.reply.wire
  refine ⟨{ wire with shut := true }, hwritten, ?_⟩
  simp only [fail, htold, Bool.false_eq_true, if_false, write, hwrite]
  rfl

/-- A reply is written before anything else happens. -/
theorem takeFrame_of_ok {r : Run α δ} (frame : Frame) {reply : Reply}
    (hsound : r.wire.fault = none)
    (hanswer : (r.table.dispatch frame r.session).answer = .ok reply)
    (hwants : (r.table.dispatch frame r.session).session.wantsTls = false) :
    let o := r.table.dispatch frame r.session
    ∃ wire, wire.fault = none ∧ wire.written = r.wire.written ++ reply.wire ∧
      r.takeFrame frame
        = settleQuit { r with session := o.session, calls := r.calls ++ o.calls, wire } := by
  intro o
  obtain ⟨wire, hwrite, hfault, hwritten⟩ := Wire.write_of_sound hsound reply.wire
  refine ⟨wire, hfault, hwritten, ?_⟩
  simp only [takeFrame, hanswer, write, hwrite, afterReply, hwants, Bool.false_eq_true, if_false]
  rfl

theorem takeFrame_of_error {r : Run α δ} {frame : Frame} {failure : Failure}
    (hsound : r.wire.fault = none)
    (hanswer : (r.table.dispatch frame r.session).answer = .error failure)
    (htold : failure.isDisconnect = false) :
    let o := r.table.dispatch frame r.session
    ∃ wire, wire.written = r.wire.written ++ failure.reply.wire ∧
      r.takeFrame frame
        = { r with
            session := o.session
            calls := r.calls ++ o.calls
            wire
            phase := .closed (.error failure) } := by
  intro o
  simp only [takeFrame, hanswer]
  exact fail_of_sound (r := { r with session := o.session, calls := r.calls ++ o.calls }) hsound htold

end Run

/-! ## Accounts of runs -/

/-- A session that has not ended, and to which TLS is not offered. -/
structure Session.Plain {α δ : Type} (settings : Settings) (s : Session α δ) : Prop where
  settings : s.settings = settings
  active : s.progress.active = true
  offersTls : s.offersTls = false
  wantsTls : s.wantsTls = false

variable {α δ : Type} [Authenticator α] [Handler δ] {settings : Settings}

theorem Session.Plain.dispatch {s : Session α δ} (h : s.Plain settings) (frame : Frame)
    (hquit : s.verb? frame ≠ some Verb.quit) :
    (CommandTable.builtin.dispatch frame s).session.Plain settings := by
  have heffect := dispatch_effect s frame
  constructor
  · exact heffect.settings.trans h.settings
  · rw [heffect.active, h.active, decide_eq_true hquit]
    rfl
  · exact heffect.offersTls.trans h.offersTls
  · exact (heffect.wantsTls h.offersTls).trans h.wantsTls

namespace Run

/-- The run reads, for so long already, and has decoded these bytes of a frame. -/
structure Ready (settings : Settings) (r : Run α δ) (idle : Nat) (opened : Bytes) : Prop where
  table : r.table = .builtin
  reading : r.phase = .reading idle
  sound : r.wire.fault = none
  plain : r.session.Plain settings
  undecided : nextFrame? settings r.session.progress.expectsMessage opened = none
  decoder : r.decoder
    = (Decoder.decode settings {} r.session.progress.expectsMessage opened).decoder

omit [Authenticator α] [Handler δ] in
theorem decode_nil (settings : Settings) (expectMessage : Bool) :
    (Decoder.decode settings {} expectMessage []).decoder = {} := rfl

theorem ready_nil {r : Run α δ} {idle : Nat} (htable : r.table = .builtin)
    (hreading : r.phase = .reading idle) (hsound : r.wire.fault = none)
    (hplain : r.session.Plain settings) (hdecoder : r.decoder = {}) : Ready settings r idle [] :=
  ⟨htable, hreading, hsound, hplain, nextFrame?_nil, hdecoder.trans (decode_nil _ _).symm⟩

/-- The account of a run, as a function of the bytes to come. -/
inductive Tells (settings : Settings) (r : Run α δ) (idle : Nat) (account : Bytes → Account) :
    Prop where
  | reading (opened : Bytes) : Ready settings r idle opened → r.buffer = [] →
    (∀ more, account more = (course r.session (opened ++ more)).after r.wire.written r.calls) →
    Tells settings r idle account
  | closed (result : Except Failure Unit) : r.phase = .closed result →
    (∀ more, account more = ⟨r.wire.written, r.calls, result⟩) → Tells settings r idle account

/-- A decoder that has decoded bytes of a frame goes on like a fresh one that is given them. -/
theorem Ready.decoded {r : Run α δ} {idle : Nat} {opened : Bytes}
    (husable : settings.spillDirectory.usable = true) (h : Ready settings r idle opened) :
    let joined := Decoder.decode settings {} r.session.progress.expectsMessage (opened ++ r.buffer)
    joined.decoder = r.decoded.decoder ∧ joined.result = r.decoded.result ∧
      (∀ frame?, r.decoded.result = .ok frame? → joined.rest = r.decoded.rest) := by
  have hopen := decode_of_none husable h.undecided
  unfold Run.decoded
  rw [h.decoder, h.plain.settings]
  exact Decoder.decode_append_of_none r.buffer hopen

theorem Tells.of_eq {r : Run α δ} {idle : Nat} {account account' : Bytes → Account}
    (h : Tells settings r idle account) (heq : ∀ more, account' more = account more) :
    Tells settings r idle account' := by
  cases h with
  | reading opened hready hbuffer haccount =>
      exact .reading opened hready hbuffer fun more => (heq more).trans (haccount more)
  | closed result hclosed haccount =>
      exact .closed result hclosed fun more => (heq more).trans (haccount more)

/-- A frame ends the run, or leaves it ready for the next one. -/
theorem takeFrame_ready {r : Run α δ} {idle : Nat} (h : Ready settings r idle []) (frame : Frame) :
    let r' := r.takeFrame frame
    (∃ result, r'.phase = .closed result ∧
      ∀ next, (answerThen r.session frame next).after r.wire.written r.calls
        = ⟨r'.wire.written, r'.calls, result⟩) ∨
    (Ready settings r' idle [] ∧ r'.buffer = r.buffer ∧
      ∀ next, (answerThen r.session frame next).after r.wire.written r.calls
        = (next r'.session).after r'.wire.written r'.calls) := by
  have heffect := dispatch_effect r.session frame
  have hplain := h.plain.dispatch frame
  have hdecoder : r.decoder = {} := h.decoder.trans (decode_nil _ _)
  unfold answerThen
  cases ho : CommandTable.builtin.dispatch frame r.session with
  | mk session answer calls =>
      rw [ho] at heffect hplain
      have hdispatch : r.table.dispatch frame r.session = ⟨session, answer, calls⟩ := by
        rw [h.table, ho]
      cases answer with
      | error failure =>
          left
          obtain ⟨detail, rfl⟩ := heffect.answer_error rfl
          obtain ⟨wire, hwritten, htake⟩ := takeFrame_of_error h.sound (by rw [hdispatch]) rfl
          rw [htake, hdispatch]
          refine ⟨_, rfl, ?_⟩
          intro next
          simp [Account.after, hwritten]
      | ok reply =>
          have hwants := (heffect.wantsTls h.plain.offersTls).trans h.plain.wantsTls
          obtain ⟨wire, hfault, hwritten, htake⟩ := takeFrame_of_ok frame h.sound
            (by rw [hdispatch]) (by rw [hdispatch]; exact hwants)
          rw [htake, hdispatch]
          have hactive : session.progress.active = _ := heffect.active
          rw [h.plain.active, Bool.true_and] at hactive
          by_cases hquit : r.session.verb? frame = some Verb.quit
          · left
            rw [decide_eq_false (not_not_intro hquit)] at hactive
            simp only [settleQuit, hactive, Bool.false_eq_true, if_false]
            refine ⟨_, rfl, ?_⟩
            intro next
            simp only [if_pos hquit, Account.after, ← hwritten]
            rfl
          · right
            have hplain' : session.Plain settings := hplain hquit
            simp only [settleQuit, hplain'.active, if_true]
            refine ⟨ready_nil h.table h.reading hfault hplain' hdecoder, trivial, ?_⟩
            intro next
            simp only [if_neg hquit, Account.after_after, hwritten]

/-- Answering the frames of the buffer is what the reference session does with them. -/
theorem Ready.answerFrames {r : Run α δ} {idle : Nat} {opened : Bytes}
    (husable : settings.spillDirectory.usable = true) (h : Ready settings r idle opened) :
    Tells settings r.answerFrames idle fun more =>
      (course r.session (opened ++ r.buffer ++ more)).after r.wire.written r.calls := by
  induction hn : r.buffer.length using Nat.strongRecOn generalizing r opened with
  | _ n ih =>
      obtain ⟨hdecoder, hresult, hrest⟩ := h.decoded husable
      rw [answerFrames_of_reading h.reading]
      cases hnext : nextFrame? settings r.session.progress.expectsMessage (opened ++ r.buffer) with
      | none =>
          rw [decode_of_none husable hnext] at hresult
          simp only [← hresult]
          refine .reading (opened ++ r.buffer) ?_ (Decoder.rest_decode_of_none hresult.symm) ?_
          · exact ⟨h.table, h.reading, h.sound, h.plain, hnext, hdecoder.symm⟩
          · intro more
            rfl
      | some p =>
          obtain ⟨result, rest⟩ := p
          rw [decode_of_some husable hnext] at hdecoder hresult hrest
          have hmore := nextFrame?_append hnext
          rw [← h.plain.settings] at hmore
          cases result with
          | error failure =>
              have htold := not_isDisconnect_of_nextFrame? hnext
              simp only [← hresult, Except.map]
              obtain ⟨wire, hwritten, hfail⟩ := fail_of_sound
                (r := { r with decoder := r.decoded.decoder, buffer := r.decoded.rest }) h.sound htold
              rw [hfail]
              refine .closed _ rfl ?_
              intro more
              rw [course_of_error (hmore more)]
              simp [Account.after, hwritten]
          | ok frame =>
              simp only [← hresult, Except.map]
              have hrest' : rest = r.decoded.rest := hrest (some frame) hresult.symm
              subst hrest'
              have hready : Ready settings
                  { r with decoder := r.decoded.decoder, buffer := r.decoded.rest } idle [] :=
                ready_nil h.table h.reading h.sound h.plain hdecoder.symm
              have hcourse := fun more => course_of_frame (hmore more)
              cases takeFrame_ready hready frame with
              | inl hclosed =>
                  obtain ⟨result, hphase, haccount⟩ := hclosed
                  rw [answerFrames_of_closed hphase]
                  refine .closed result hphase ?_
                  intro more
                  rw [hcourse]
                  exact haccount _
              | inr hopen =>
                  obtain ⟨hready', hbuffer, haccount⟩ := hopen
                  have hlt : r.decoded.rest.length < n :=
                    hn ▸ Decoder.length_rest_decode_lt hresult.symm
                  refine (ih _ (hbuffer ▸ hlt) hready' rfl).of_eq ?_
                  intro more
                  rw [hcourse, List.nil_append, hbuffer]
                  exact haccount _

/-! ## Steps of the client -/

theorem Tells.turn {r : Run α δ} {idle : Nat} {account : Bytes → Account}
    (h : Tells settings r idle account) :
    Tells settings { r with wire := r.wire.turn } idle account := by
  cases h with
  | reading opened hready hbuffer haccount =>
      obtain ⟨htable, hreading, hsound, hplain, hundecided, hdecoder⟩ := hready
      refine .reading opened ⟨htable, hreading, hsound, hplain, hundecided, hdecoder⟩ hbuffer ?_
      intro more
      rw [haccount, ← Wire.written_turn]
  | closed result hclosed haccount =>
      refine .closed result hclosed ?_
      intro more
      rw [haccount, ← Wire.written_turn]

/-- What is read was to come before. -/
theorem Tells.takeRead {r : Run α δ} {idle : Nat} {account : Bytes → Account}
    (husable : settings.spillDirectory.usable = true) (h : Tells settings r idle account)
    (bs : Bytes) :
    Tells settings (r.takeRead bs) 0 fun more => account (bs ++ more) := by
  cases h with
  | reading opened hready hbuffer haccount =>
      obtain ⟨htable, hreading, hsound, hplain, hundecided, hdecoder⟩ := hready
      have hnext : Ready settings { r with phase := .reading 0, buffer := r.buffer ++ bs } 0 opened :=
        ⟨htable, rfl, hsound, hplain, hundecided, hdecoder⟩
      simp only [Run.takeRead, hreading]
      refine (hnext.answerFrames husable).of_eq ?_
      intro more
      rw [haccount, hbuffer, List.nil_append, List.append_assoc]
  | closed result hclosed haccount =>
      simp only [Run.takeRead, hclosed]
      exact .closed result hclosed fun more => haccount (bs ++ more)

theorem Tells.takeReads {r : Run α δ} {idle : Nat} {account : Bytes → Account}
    (husable : settings.spillDirectory.usable = true) (h : Tells settings r idle account)
    (reads : List Bytes) :
    Tells settings (reads.foldl Run.takeRead r) (if reads = [] then idle else 0)
      fun more => account (reads.flatten ++ more) := by
  induction reads generalizing r idle account with
  | nil => exact h
  | cons bs reads ih =>
      have hrest := ih (h.takeRead husable bs)
      rw [ite_self] at hrest
      rw [if_neg (List.cons_ne_nil bs reads)]
      refine hrest.of_eq ?_
      intro more
      rw [List.flatten_cons, List.append_assoc]

/-- A wait within the limit changes nothing but the time. -/
theorem Tells.elapse {r : Run α δ} {idle : Nat} {account : Bytes → Account}
    (h : Tells settings r idle account) {milliseconds : Nat}
    (hlimit : idle + milliseconds ≤ settings.idleLimit) :
    Tells settings (r.elapse milliseconds) (idle + milliseconds) account := by
  cases h with
  | reading opened hready hbuffer haccount =>
      obtain ⟨htable, hreading, hsound, hplain, hundecided, hdecoder⟩ := hready
      simp only [Run.elapse, hreading, hplain.settings, if_neg (Nat.not_lt.2 hlimit)]
      exact .reading opened ⟨htable, rfl, hsound, hplain, hundecided, hdecoder⟩ hbuffer haccount
  | closed result hclosed haccount =>
      simp only [Run.elapse, hclosed]
      exact .closed result hclosed haccount

end Run

/-! ## Clients that send bytes -/

theorem flatten_readsWithin (size : Nat) :
    ∀ (bs : Bytes) (room : Nat), (readsWithin size room bs).flatten = bs
  | [], _ => rfl
  | b :: bs, room => by
      unfold readsWithin
      split
      next => rw [List.flatten_cons, flatten_readsWithin size bs size]; rfl
      next =>
        have ih := flatten_readsWithin size bs (room - 1)
        split
        next h => rw [h] at ih; rw [← ih]; rfl
        next r rs h => rw [h] at ih; rw [← ih]; rfl

theorem readsOf_eq_nil {size : Nat} {bs : Bytes} : readsOf size bs = [] ↔ bs = [] := by
  constructor
  · intro h
    rw [← flatten_readsWithin size bs size]
    exact congrArg List.flatten h
  · rintro rfl
    rfl

/-- The bytes that a client sends. -/
def sent : List ClientStep → Bytes
  | [] => []
  | .send bs :: steps => bs ++ sent steps
  | _ :: steps => sent steps

/-- The client sends and waits, never longer than a limit between two reads, and does nothing
else. -/
def Prompt (limit : Nat) : Nat → List ClientStep → Prop
  | _, [] => True
  | idle, .send bs :: steps => Prompt limit (if bs = [] then idle else 0) steps
  | idle, .wait milliseconds :: steps =>
    idle + milliseconds ≤ limit ∧ Prompt limit (idle + milliseconds) steps
  | _, _ :: _ => False

/-- When the client is done, the run is closed and its account is the one it told. -/
theorem Run.Tells.takeSteps (husable : settings.spillDirectory.usable = true) :
    ∀ {steps : List ClientStep} {r : Run α δ} {idle : Nat} {account : Bytes → Account},
      Prompt settings.idleLimit idle steps → Tells settings r idle account →
        let r' := (Run.takeSteps steps r).2
        ∃ result, r'.phase = .closed result ∧
          account (sent steps) = ⟨r'.wire.written, r'.calls, result⟩
  | [], r, idle, account, _, h => by
      cases h with
      | reading opened hready _ haccount =>
          simp only [Run.takeSteps, Run.endOfInput, hready.reading, sent]
          refine ⟨_, rfl, ?_⟩
          have hnone := hready.undecided
          rw [← hready.plain.settings] at hnone
          rw [haccount, List.append_nil, course_of_none hnone]
          simp [Account.after, close]
      | closed result hclosed haccount =>
          simp only [Run.takeSteps, Run.endOfInput, hclosed]
          exact ⟨result, rfl, haccount _⟩
  | step :: steps, r, idle, account, hprompt, h => by
      cases h with
      | closed result hclosed haccount =>
          simp only [Run.takeSteps, hclosed]
          exact ⟨result, rfl, haccount _⟩
      | reading opened hready hbuffer haccount =>
          have hsettings : r.session.settings = settings := hready.plain.settings
          have hphase := hready.reading
          have htells := (Tells.reading opened hready hbuffer haccount).turn
          rw [Run.takeSteps]
          split
          next result hclosed => rw [hphase] at hclosed; cases hclosed
          next =>
          cases step with
          | send bs =>
              have hreads := htells.takeReads husable (readsOf settings.readSize bs)
              simp only [readsOf_eq_nil] at hreads
              have hprompt' : Prompt settings.idleLimit (if bs = [] then idle else 0) steps := hprompt
              have hrest := takeSteps husable hprompt' hreads
              rw [readsOf, flatten_readsWithin] at hrest
              simp only [Run.takeStep, hsettings]
              exact hrest
          | wait milliseconds =>
              obtain ⟨hlimit, hprompt'⟩ := hprompt
              exact takeSteps husable hprompt' (htells.elapse hlimit)
          | readError | writeError | startTls => exact hprompt.elim

/-! ## The whole connection -/

/-- An admitted connection greets the client and is ready. -/
theorem Run.tells_start {c : Connection α δ} (htable : c.table = .builtin)
    (hadmitted : c.isRefused = false) (hplain : c.session.Plain settings) :
    Tells settings (Run.start c none) 0 fun more =>
      (course c.session more).after (Reply.line .ready settings.greeting).wire [] := by
  obtain ⟨wire, hwrite, hfault, hwritten⟩ :=
    Wire.write_of_sound (w := {}) rfl (Reply.line .ready settings.greeting).wire
  have hstart : Run.start c none
      = { session := c.session, table := c.table, hasTls := c.hasTls, wire } := by
    rw [← hplain.settings] at hwrite
    simp only [Run.start, hadmitted, Run.write, hwrite]
    rfl
  rw [hstart]
  refine .reading [] (ready_nil htable rfl hfault hplain rfl) rfl ?_
  intro more
  rw [List.nil_append, hwritten]
  rfl

/-- A connection to which TLS is not offered does what the reference session does with all bytes
that the client sends.  How the bytes are cut into reads does not matter, nor does the time between
them. -/
theorem run_follows_course (husable : settings.spillDirectory.usable = true) (auth : α)
    (delivery : δ) (remote : Option String) {place : Option Nat}
    (hadmitted : isOverCapacity settings.maxConnections place = false) {steps : List ClientStep}
    (hprompt : Prompt settings.idleLimit 0 steps) :
    let c : Connection α δ :=
      { Connection.make settings .builtin auth delivery false remote with place }
    let report := c.run { steps }
    let account := (course c.session (sent steps)).after
      (Reply.line .ready settings.greeting).wire []
    report.transcript.flatten = account.written ∧ report.calls = account.calls ∧
      report.result = account.result := by
  intro c report account
  have htable : c.table = .builtin := by simp only [c, Connection.make]
  have hplain : c.session.Plain settings := ⟨rfl, rfl, rfl, rfl⟩
  have htells := Run.tells_start htable hadmitted hplain
  obtain ⟨result, hclosed, haccount⟩ := htells.takeSteps husable hprompt
  refine ⟨?_, ?_, ?_⟩
  · exact (congrArg Account.written haccount).symm
  · exact (congrArg Account.calls haccount).symm
  · refine Eq.trans ?_ (congrArg Account.result haccount).symm
    simp only [report, Connection.run, hclosed]

theorem run_follows_course_noop :
    let steps : List ClientStep := [.send (Text.encode "NO"), .wait 5, .send (Text.encode "OP\r\n")]
    let c : Connection Auth.Open (Delivery.Fanout Unit) :=
      { Connection.make {} .builtin {} { listeners := [], world := () } false none with
        place := some 1 }
    Prompt 60000 0 steps ∧
      (c.run { steps }).transcript.flatten
        = Text.encode "220 localhost ESMTP Mailgate\r\n250 Ok\r\n" := by
  intro steps c
  have hprompt : Prompt ({} : Settings).idleLimit 0 steps := by
    simp [steps, Prompt]
  have husable : ({} : Settings).spillDirectory.usable = true := rfl
  have hadmitted : isOverCapacity ({} : Settings).maxConnections (some 1) = false := by decide
  have hcourse := run_follows_course husable ({} : Auth.Open)
    ({ listeners := [], world := () } : Delivery.Fanout Unit) none hadmitted hprompt
  exact ⟨hprompt, hcourse.1.trans (by decide +kernel)⟩

end SmtpReceiver
