import SmtpReceiver.Proofs.Auth.Gate

/-!
# One attempt, one login

A validator need not be the same at each frame, so a session is followed here
with a validator for every frame (`judgedLog`).

The stage of PLAIN and LOGIN can be read off the lines so far.  Whenever a
response is due, the line before was the one that asked for it, and the line
before a password that asked for the user name (`Came`).  So the two halves of
a login are from one `Attempt`, and no line of another kind is between them.  A
message may be, and changes nothing.
-/

namespace SmtpReceiver

open Auth (Authenticator Mechanism PlainLogin Stage Validator authLine? loginResponse? plainSecret?)
open Delivery (Handler)
open Framing (Frame)
open Text (Base64)

variable {δ : Type}

/-! ## A validator for every frame -/

namespace Auth.PlainLogin

/-- The same state with another validator. -/
def judgedBy (v : Validator) (p : PlainLogin) : PlainLogin :=
  { p with
    parts := p.parts.map
      (Sum.map (fun plain => { plain with validator := v })
        fun login => { login with validator := v }) }

theorem judgedBy_due (v w : Validator) (stage : Stage) : (due v stage).judgedBy w = due w stage :=
  rfl

end Auth.PlainLogin

namespace Session

/-- The same session with another validator. -/
def judgedBy (v : Validator) (s : Session PlainLogin δ) : Session PlainLogin δ :=
  { s with auth := s.auth.judgedBy v }

variable [Base64] [Handler δ]

/-- The session after frames that each come with the validator of the moment. -/
def judgedAfter (s : Session PlainLogin δ) (turns : List (Validator × Frame)) :
    Session PlainLogin δ :=
  turns.foldl (fun s turn => (CommandTable.builtin.dispatch turn.2 (s.judgedBy turn.1)).session) s

/-- The log of frames that each come with the validator of the moment. -/
def judgedLog (s : Session PlainLogin δ) :
    List (Validator × Frame) → List (Event PlainLogin δ)
  | [] => []
  | turn :: turns =>
    let o := CommandTable.builtin.dispatch turn.2 (s.judgedBy turn.1)
    ⟨s.judgedBy turn.1, turn.2, o⟩ :: o.session.judgedLog turns

theorem judgedAfter_concat (s : Session PlainLogin δ) (turns : List (Validator × Frame))
    (v : Validator) (frame : Frame) :
    s.judgedAfter (turns ++ [(v, frame)])
      = (CommandTable.builtin.dispatch frame ((s.judgedAfter turns).judgedBy v)).session := by
  simp only [judgedAfter, List.foldl_append, List.foldl_cons, List.foldl_nil]

theorem judgedLog_concat (turns : List (Validator × Frame)) (v : Validator) (frame : Frame) :
    ∀ s : Session PlainLogin δ,
      let t := (s.judgedAfter turns).judgedBy v
      s.judgedLog (turns ++ [(v, frame)])
        = s.judgedLog turns ++ [⟨t, frame, CommandTable.builtin.dispatch frame t⟩] := by
  induction turns with
  | nil => intro s; rfl
  | cons first turns ih =>
      intro s
      simp only [List.cons_append, judgedLog, ih]
      rfl

/-- What is true at the start, and kept by every effect under any validator, is true of a session
and its log. -/
theorem judged_induction {s : Session PlainLogin δ}
    {P : List (Event PlainLogin δ) → Session PlainLogin δ → Prop} (hstart : P [] s)
    (hstep : ∀ log s v frame o, P log s → Effect (s.judgedBy v) frame o →
      P (log ++ [⟨s.judgedBy v, frame, o⟩]) o.session)
    (turns : List (Validator × Frame)) : P (s.judgedLog turns) (s.judgedAfter turns) := by
  induction turns using List.reverseRecOn with
  | nil => exact hstart
  | append_singleton turns turn ih =>
      obtain ⟨v, frame⟩ := turn
      rw [judgedLog_concat, judgedAfter_concat]
      exact hstep _ _ v frame _ ih (dispatch_effect _ frame)

end Session

/-! ## How a stage came about -/

/-- The prompt for one half of a login. -/
def prompt [Base64] (text : String) : Reply := .line .challenge (Base64.encode (Text.encode text))

namespace Event

/-- The line begins an exchange without a response, and is answered so. -/
structure Begins (m : Mechanism) (r : Reply) (e : Event PlainLogin δ) : Prop where
  line : ∃ text name, e.frame = .line text ∧ authLine? text = some (name, []) ∧
    Mechanism.ofName? name = some m
  answer : e.outcome.answer = .ok r

/-- The line is the response that names the user, and the password is asked for. -/
structure Names [Base64] (user : String) (e : Event PlainLogin δ) : Prop where
  line : ∃ text, e.frame = .line text ∧ authLine? text = none ∧ loginResponse? text = some user
  answer : e.outcome.answer = .ok (prompt "Password:")

def isLine (e : Event PlainLogin δ) : Bool :=
  match e.frame with
  | .line _ => true
  | .message _ => false

end Event

/-- The last lines of a log led to this stage. -/
inductive Came [Base64] : Stage → List (Event PlainLogin δ) → Prop where
  | command (lines : List (Event PlainLogin δ)) : Came .command lines
  | secret (lines : List (Event PlainLogin δ)) {e : Event PlainLogin δ} :
    e.Begins .plain (.line .challenge "") → Came .secret (lines ++ [e])
  | userName (lines : List (Event PlainLogin δ)) {e : Event PlainLogin δ} :
    e.Begins .login (prompt "Username:") → Came .userName (lines ++ [e])
  | password (lines : List (Event PlainLogin δ)) {e e' : Event PlainLogin δ} {user : String} :
    e.Begins .login (prompt "Username:") → e'.Names user →
    Came (.password user) (lines ++ [e] ++ [e'])

/-- After these lines, a line completes an attempt with this user name and password.  Both are in
the response of PLAIN, which comes with the command or in the line behind it.  Or the user name is
in the first line behind the command of LOGIN, and the password in the second. -/
inductive Attempt [Base64] (lines : List (Event PlainLogin δ)) (text : String) :
    String → String → Prop where
  | inline {name response : String} {rest : List String} {user pass : String} :
    authLine? text = some (name, response :: rest) → Mechanism.ofName? name = some .plain →
    plainSecret? response = some (user, pass) → Attempt lines text user pass
  | plain {user pass : String} : Came .secret lines → authLine? text = none →
    plainSecret? (Text.trim text) = some (user, pass) → Attempt lines text user pass
  | login {user pass : String} : Came (.password user) lines → authLine? text = none →
    loginResponse? text = some pass → Attempt lines text user pass

/-! ## What a stage answers -/

/-- A line is answered by a challenge, which leads to a stage, or by a check of what one attempt
gave, or by a fault. -/
inductive Answered [Base64] (v : Validator) (lines : List (Event PlainLogin δ)) (text : String) :
    Turn Auth.Call Stage Auth.Answer → Prop where
  | asks (challenge : String) (next : Stage) :
    (∀ e : Event PlainLogin δ, e.frame = .line text →
      e.outcome.answer = .ok (.line .challenge challenge) → Came next (lines ++ [e])) →
    Answered v lines text ⟨.ok (.challenge challenge), next, []⟩
  | accepts (user pass : String) : Attempt lines text user pass → v user pass = true →
    Answered v lines text ⟨.ok (.done user), .command, [.login user pass true]⟩
  | rejects (user pass : String) : Attempt lines text user pass → v user pass = false →
    Answered v lines text ⟨.error .failed, .command, [.login user pass false]⟩
  | faults (fault : Auth.Fault) : Answered v lines text ⟨.error fault, .command, []⟩

section Answered

variable [Base64] {v : Validator} {lines : List (Event PlainLogin δ)} {text : String}

theorem answered_check {response : Option (String × String)}
    (hattempt : ∀ user pass, response = some (user, pass) → Attempt lines text user pass) :
    Answered v lines text (Stage.check v response) := by
  cases response with
  | none => exact .faults .failed
  | some p =>
      obtain ⟨user, pass⟩ := p
      have h := hattempt user pass rfl
      simp only [Stage.check]
      split
      next haccepts => exact .accepts user pass h haccepts
      next hrejects => exact .rejects user pass h (by simpa using hrejects)

theorem answered_start {name : String} {rest : List String}
    (hline : authLine? text = some (name, rest)) :
    Answered v lines text (Stage.start v name rest) := by
  cases hname : Mechanism.ofName? name with
  | none =>
      simp only [Stage.start, hname]
      exact .faults _
  | some m =>
      cases rest with
      | nil =>
          have hbegins : ∀ (r : Reply) (e : Event PlainLogin δ), e.frame = .line text →
              e.outcome.answer = .ok r → e.Begins m r :=
            fun r e hframe hanswer => ⟨⟨text, name, hframe, hline, hname⟩, hanswer⟩
          cases m with
          | plain =>
              simp only [Stage.start, hname]
              exact .asks _ _ fun e hframe hanswer => .secret lines (hbegins _ e hframe hanswer)
          | login =>
              simp only [Stage.start, hname]
              exact .asks _ _ fun e hframe hanswer => .userName lines (hbegins _ e hframe hanswer)
      | cons response rest =>
          cases m with
          | plain =>
              simp only [Stage.start, hname]
              exact answered_check fun user pass hsecret => .inline hline hname hsecret
          | login =>
              simp only [Stage.start, hname]
              exact .faults _

theorem Came.answered {stage : Stage} (h : Came stage lines) :
    Answered v lines text (stage.answer v text) := by
  unfold Stage.answer
  cases hline : authLine? text with
  | some p => exact answered_start hline
  | none =>
      have hcame := h
      cases h with
      | command => exact .faults _
      | secret =>
          simp only [Stage.respond]
          exact answered_check fun user pass hsecret => .plain hcame hline hsecret
      | userName lines hbegins =>
          simp only [Stage.respond]
          cases hresponse : loginResponse? text with
          | none => exact .faults _
          | some user =>
              refine .asks _ _ fun e hframe hanswer => ?_
              exact .password lines hbegins ⟨⟨text, hframe, hline, hresponse⟩, hanswer⟩
      | password =>
          simp only [Stage.respond]
          refine answered_check fun user pass hpair => ?_
          obtain ⟨pass', hresponse, heq⟩ := Option.map_eq_some_iff.1 hpair
          cases heq
          exact .login hcame hline hresponse

end Answered

/-! ## Logins of an event -/

/-- The user name and the password that were checked, and whether they were accepted. -/
def Call.login? : Call → Option (String × String × Bool)
  | .auth (.login user pass accepted) => some (user, pass, accepted)
  | _ => none

def Event.logins (e : Event PlainLogin δ) : List (String × String × Bool) :=
  e.outcome.calls.filterMap Call.login?

theorem logins_delivery (calls : List Delivery.Call) :
    (calls.map Call.delivery).filterMap Call.login? = [] := by
  induction calls with
  | nil => rfl
  | cons c calls ih => exact ih

/-- During an exchange every line is dispatched as AUTH. -/
theorem Session.not_authenticating_of_verb (s : Session PlainLogin δ) {text verb : String}
    (hv : s.verb? (.line text) = some verb) (hverb : verb ≠ Verb.auth) :
    s.progress.authenticating = false := by
  cases hauthenticating : s.progress.authenticating with
  | false => rfl
  | true =>
      simp only [Session.verb?, hauthenticating, if_true, Option.some.injEq] at hv
      exact absurd hv.symm hverb

/-- PLAIN and LOGIN are at a stage to which the lines of the log led.  Unless that is the stage of a
command, an exchange is under way. -/
structure AtStage [Base64] (log : List (Event PlainLogin δ)) (s : Session PlainLogin δ)
    (v : Validator) (stage : Stage) : Prop where
  auth : s.auth = PlainLogin.due v stage
  underway : stage ≠ .command → s.progress.authenticating = true ∧ s.progress.authenticated = false
  came : Came stage (log.filter Event.isLine)

/-- A login of an event is the whole of one attempt, and decides whether it authenticates. -/
structure Judged [Base64] (log : List (Event PlainLogin δ)) (v : Validator)
    (e : Event PlainLogin δ) : Prop where
  next : ∃ stage, AtStage (log ++ [e]) e.outcome.session v stage
  once : e.logins.length ≤ 1
  accepted : e.authenticates ↔ ∃ user pass, e.logins = [(user, pass, true)]
  becomes : e.authenticates ↔
    e.before.progress.authenticated = false ∧ e.outcome.session.progress.authenticated = true
  attempt : ∀ user pass accepted, (user, pass, accepted) ∈ e.logins →
    (∃ text, e.frame = .line text ∧ Attempt (log.filter Event.isLine) text user pass) ∧
      v user pass = accepted ∧ (accepted = true → e.outcome.session.peer.user = some user)

/-- An event without a login does not authenticate. -/
theorem Judged.of_quiet [Base64] {log : List (Event PlainLogin δ)} {v : Validator}
    {e : Event PlainLogin δ}
    (hlogins : e.logins = []) (hno : ¬e.authenticates)
    (hkeeps : e.outcome.session.progress.authenticated = true →
      e.before.progress.authenticated = true)
    (hnext : ∃ stage, AtStage (log ++ [e]) e.outcome.session v stage) : Judged log v e where
  next := hnext
  once := by rw [hlogins]; exact Nat.zero_le 1
  accepted := by
    refine iff_of_false hno ?_
    rintro ⟨user, pass, heq⟩
    rw [hlogins] at heq
    cases heq
  becomes := by
    refine iff_of_false hno ?_
    rintro ⟨hnot, hauthenticated⟩
    rw [hkeeps hauthenticated] at hnot
    cases hnot
  attempt user pass accepted hmem := by
    rw [hlogins] at hmem
    cases hmem

namespace AtStage

variable [Base64] {log : List (Event PlainLogin δ)} {s : Session PlainLogin δ} {v : Validator}
  {stage : Stage} {frame : Frame} {o : Outcome PlainLogin δ}

theorem judgedBy (h : AtStage log s v stage) (w : Validator) :
    AtStage log (s.judgedBy w) w stage where
  auth := by
    show s.auth.judgedBy w = _
    rw [h.auth, PlainLogin.judgedBy_due]
  underway := h.underway
  came := h.came

/-- At the stage of a command nothing is kept of the lines before. -/
theorem of_command (hauth : s.auth = PlainLogin.due v .command) :
    ∃ stage, AtStage log s v stage :=
  ⟨.command, hauth, fun hne => absurd rfl hne, .command _⟩

/-- While no exchange is under way, a command is due. -/
theorem eq_command (h : AtStage log s v stage) (hnot : s.progress.authenticating = false) :
    stage = .command := by
  by_contra hne
  rw [(h.underway hne).1] at hnot
  cases hnot

theorem quiet_of_verb (h : AtStage log s v stage) {verb : String} (hv : s.verb? frame = some verb)
    (hverb : verb ∉ [Verb.auth, Verb.dataEnd]) (hlogins : Event.logins ⟨s, frame, o⟩ = [])
    (hauth : o.session.auth = s.auth)
    (hkeeps : o.session.progress.authenticated = s.progress.authenticated) :
    Judged log v ⟨s, frame, o⟩ := by
  have hne : verb ≠ Verb.auth := fun heq => hverb (heq ▸ List.mem_cons_self)
  have hno : ¬Event.authenticates ⟨s, frame, o⟩ := Event.not_authenticates_of_verb hv hne
  refine .of_quiet hlogins hno (fun h => hkeeps ▸ h) (of_command ?_)
  cases frame with
  | message m =>
      cases hv
      exact absurd (List.mem_cons_of_mem _ List.mem_cons_self) hverb
  | line text => rw [hauth, h.auth, h.eq_command (s.not_authenticating_of_verb hv hne)]

theorem exchanged (h : AtStage log s v stage) {text : String}
    (hv : s.verb? (.line text) = some Verb.auth) (hnot : s.progress.authenticated = false)
    (hexchanged : Exchanged s (Authenticator.answer s.auth text) o) :
    Judged log v ⟨s, .line text, o⟩ := by
  have hanswered : Answered v (log.filter Event.isLine) text (stage.answer v text) :=
    h.came.answered
  have hcode : ReplyCode.challenge ≠ ReplyCode.authenticated := by decide
  have hfailed := Auth.Fault.failed.code_ne
  rw [h.auth, PlainLogin.answer_due] at hexchanged
  generalize stage.answer v text = t at hanswered hexchanged
  cases hanswered with
  | asks challenge next hnext =>
      cases hexchanged with
      | done user hresult => cases hresult
      | fault fault hresult => cases hresult
      | challenge challenge' hresult =>
          cases hresult
          refine .of_quiet rfl (fun hlogin => hcode (Option.some.inj hlogin.2)) id ⟨next, rfl, ?_, ?_⟩
          · exact fun _ => ⟨rfl, hnot⟩
          · rw [List.filter_append]
            exact hnext _ rfl rfl
  | accepts user pass hattempt haccepts =>
      cases hexchanged with
      | challenge challenge hresult => cases hresult
      | fault fault hresult => cases hresult
      | done user' hresult =>
          cases hresult
          refine ⟨of_command rfl, Nat.le_refl 1, ?_, ?_, ?_⟩
          · exact iff_of_true ⟨hv, rfl⟩ ⟨user, pass, rfl⟩
          · exact iff_of_true ⟨hv, rfl⟩ ⟨hnot, rfl⟩
          · intro user' pass' accepted hmem
            cases List.mem_singleton.1 hmem
            exact ⟨⟨text, rfl, hattempt⟩, haccepts, fun _ => rfl⟩
  | rejects user pass hattempt hrejects =>
      cases hexchanged with
      | challenge challenge hresult => cases hresult
      | done user hresult => cases hresult
      | fault fault hresult =>
          cases hresult
          refine ⟨of_command rfl, Nat.le_refl 1, ?_, ?_, ?_⟩
          · refine iff_of_false (fun hlogin => hfailed (Option.some.inj hlogin.2)) ?_
            rintro ⟨user', pass', heq⟩
            cases heq
          · refine iff_of_false (fun hlogin => hfailed (Option.some.inj hlogin.2)) ?_
            rintro ⟨-, hauthenticated⟩
            cases hauthenticated
          · intro user' pass' accepted hmem
            cases List.mem_singleton.1 hmem
            exact ⟨⟨text, rfl, hattempt⟩, hrejects, nofun⟩
  | faults fault =>
      cases hexchanged with
      | challenge challenge hresult => cases hresult
      | done user hresult => cases hresult
      | fault fault hresult =>
          cases hresult
          refine .of_quiet rfl ?_ nofun (of_command rfl)
          exact fun hlogin => fault.code_ne (Option.some.inj hlogin.2)

theorem of_message (h : AtStage log s v stage) {m : Message} (hauth : o.session.auth = s.auth)
    (hprogress : o.session.progress.authenticating = s.progress.authenticating ∧
      o.session.progress.authenticated = s.progress.authenticated) :
    AtStage (log ++ [⟨s, .message m, o⟩]) o.session v stage where
  auth := hauth.trans h.auth
  underway := by rw [hprogress.1, hprogress.2]; exact h.underway
  came := by
    rw [List.filter_append]
    exact (List.append_nil (log.filter Event.isLine)).symm ▸ h.came

omit [Base64] in
theorem asked_logins {mark : Mark} {asked : Call}
    {t : Turn Delivery.Call δ (Except Delivery.Rejection Unit)} (hasked : Asked s mark asked t o)
    (hnone : asked.login? = none) : Event.logins ⟨s, frame, o⟩ = [] := by
  rw [Event.logins, hasked.calls, List.filterMap_cons, hnone]
  exact logins_delivery t.calls

theorem reset_eq (h : AtStage log s v stage) :
    Authenticator.reset s.auth = ⟨(), PlainLogin.due v .command, []⟩ := by
  rw [h.auth, PlainLogin.reset_due]

/-- An event in which PLAIN and LOGIN are only told to forget. -/
theorem of_reset (h : AtStage log s v stage)
    (hauth : o.session.auth = (Authenticator.reset s.auth).next)
    (hcalls : o.calls = (Authenticator.reset s.auth).calls.map .auth)
    (hno : ¬Event.authenticates ⟨s, frame, o⟩)
    (hkeeps : o.session.progress.authenticated = true → s.progress.authenticated = true) :
    Judged log v ⟨s, frame, o⟩ := by
  rw [h.reset_eq] at hauth hcalls
  refine .of_quiet ?_ hno hkeeps (of_command hauth)
  rw [Event.logins, hcalls]
  rfl

theorem delivered [Handler δ] (h : AtStage log s v stage) {m : Message}
    (hm : frame = .message m ∨ s.verb? frame = some Verb.dataEnd ∧ s.pending = some m) :
    Judged log v ⟨s, frame, s.deliver m⟩ := by
  have hno : ¬Event.authenticates ⟨s, frame, s.deliver m⟩ :=
    Event.not_authenticates_of_verb (Effect.verb_of_deliver hm) (by decide)
  refine .of_quiet (logins_delivery _) hno id ?_
  cases frame with
  | message m => exact ⟨stage, h.of_message rfl ⟨rfl, rfl⟩⟩
  | line text =>
      refine of_command (h.auth.trans (congrArg _ (h.eq_command ?_)))
      cases hm with
      | inl hframe => cases hframe
      | inr hm => exact s.not_authenticating_of_verb hm.1 (by decide)

theorem judged [Handler δ] (h : AtStage log s v stage) (he : Effect s frame o) :
    Judged log v ⟨s, frame, o⟩ := by
  cases he with
  | stay r hidle =>
      have hcommand : stage = .command := by
        by_contra hne
        obtain ⟨hauthenticating, hnot⟩ := h.underway hne
        rw [hidle.exchange hauthenticating] at hnot
        cases hnot
      have hno : ¬Event.authenticates ⟨s, frame, s.answer r⟩ :=
        fun hlogin => hidle.auth hlogin.1 (Option.some.inj hlogin.2)
      exact .of_quiet rfl hno id (of_command (hcommand ▸ h.auth))
  | greet r hv =>
      cases hv with
      | inl hv => exact h.quiet_of_verb hv (by decide) rfl rfl rfl
      | inr hv => exact h.quiet_of_verb hv (by decide) rfl rfl rfl
  | quit hv => exact h.quiet_of_verb hv (by decide) rfl rfl rfl
  | reset hv => exact h.quiet_of_verb hv (by decide) rfl rfl rfl
  | data hv => exact h.quiet_of_verb hv (by decide) rfl rfl rfl
  | startTls hv =>
      exact h.of_reset rfl rfl (Event.not_authenticates_of_verb hv (by decide)) nofun
  | sender address hv =>
      have hasked := acceptSender_asked s address
      have hauth := congrArg Session.auth hasked.session
      refine h.quiet_of_verb hv (by decide) (asked_logins hasked rfl) hauth ?_
      exact hasked.authenticated rfl
  | recipient address hv =>
      have hasked := acceptRecipient_asked s address
      have hauth := congrArg Session.auth hasked.session
      refine h.quiet_of_verb hv (by decide) (asked_logins hasked rfl) hauth ?_
      exact hasked.authenticated rfl
  | cancel hv hnot =>
      have hcode : ReplyCode.badArguments ≠ ReplyCode.authenticated := by decide
      exact h.of_reset rfl rfl (fun hlogin => hcode (Option.some.inj hlogin.2)) id
  | exchange text hframe hv hnot =>
      subst hframe
      exact h.exchanged hv hnot (exchange_exchanged s text)
  | deliver m hm => exact h.delivered hm

theorem of_over (hauth : s.auth = PlainLogin.over v) : AtStage [] s v .command where
  auth := hauth.trans (PlainLogin.over_eq_due v)
  underway hne := absurd rfl hne
  came := .command _

end AtStage

section Login

variable [Base64] [Handler δ] {s : Session PlainLogin δ} {v : Validator}

theorem judged_stage (hauth : s.auth = PlainLogin.over v)
    (turns : List (Validator × Frame)) :
    ∃ w stage, AtStage (s.judgedLog turns) (s.judgedAfter turns) w stage := by
  refine Session.judged_induction
    (P := fun log t => ∃ w stage, AtStage log t w stage) ⟨v, .command, .of_over hauth⟩ ?_ turns
  rintro log s w frame o ⟨_, stage, h⟩ he
  exact ⟨w, ((h.judgedBy w).judged he).next⟩

/-- A session keeps its validator. -/
theorem judgedBy_after (hauth : s.auth = PlainLogin.over v) (frames : List Frame) :
    (s.after frames).judgedBy v = s.after frames := by
  have hreachable : Auth.Reachable (PlainLogin.over v) (s.after frames).auth :=
    Session.history_induction (P := fun _ t => Auth.Reachable (PlainLogin.over v) t.auth)
      (hauth ▸ .start) (fun _ _ _ _ h he => he.reachable h) frames
  obtain ⟨stage, hstage⟩ := PlainLogin.reachable_over hreachable
  have hkept : (s.after frames).auth.judgedBy v = (s.after frames).auth := by
    rw [hstage, PlainLogin.judgedBy_due]
  simp only [Session.judgedBy, hkept]

/-- With the same validator for every frame, the log is that of the session. -/
theorem judged_constant (hauth : s.auth = PlainLogin.over v) (frames : List Frame) :
    s.judgedLog (frames.map (v, ·)) = s.log frames ∧
      s.judgedAfter (frames.map (v, ·)) = s.after frames := by
  induction frames using List.reverseRecOn with
  | nil => exact ⟨rfl, rfl⟩
  | append_singleton frames frame ih =>
      rw [List.map_append, List.map_singleton, Session.judgedLog_concat,
        Session.judgedAfter_concat, Session.log_concat, Session.after_concat, ih.1, ih.2,
        judgedBy_after hauth]
      exact ⟨rfl, rfl⟩

/-- With PLAIN and LOGIN, a frame makes one login at most.  The client is authenticated, and told
so, exactly when there is a login that the validator accepts, and then as the user of that login.
The user name and the password of any login come from one attempt. -/
theorem login_of_one_attempt (hauth : s.auth = PlainLogin.over v)
    (turns : List (Validator × Frame)) (w : Validator) (frame : Frame) :
    let lines := (s.judgedLog turns).filter Event.isLine
    let t := (s.judgedAfter turns).judgedBy w
    let e : Event PlainLogin δ := ⟨t, frame, CommandTable.builtin.dispatch frame t⟩
    e.logins.length ≤ 1 ∧
    (e.authenticates ↔ ∃ user pass, e.logins = [(user, pass, true)]) ∧
    (e.authenticates ↔
      t.progress.authenticated = false ∧ e.outcome.session.progress.authenticated = true) ∧
    ∀ user pass accepted, (user, pass, accepted) ∈ e.logins →
      (∃ text, frame = .line text ∧ Attempt lines text user pass) ∧
      w user pass = accepted ∧ (accepted = true → e.outcome.session.peer.user = some user) := by
  intro lines t e
  obtain ⟨_, stage, h⟩ := judged_stage hauth turns
  have hjudged : Judged (s.judgedLog turns) w e := (h.judgedBy w).judged (dispatch_effect t frame)
  exact ⟨hjudged.once, hjudged.accepted, hjudged.becomes, hjudged.attempt⟩

end Login

theorem login_of_one_attempt_restarted :
    let v : Validator := fun _ _ => false
    let w : Validator := fun user password => user == "u" && password == "p"
    let s : Session PlainLogin (Delivery.Fanout Unit) :=
      { settings := {}, auth := .over v, delivery := { listeners := [], world := () } }
    let turns : List (Validator × Frame) :=
      [(v, .line "EHLO a"), (v, .line "AUTH LOGIN"), (v, .line "eA=="), (v, .line "AUTH PLAIN"),
        (v, .line "AUTH LOGIN"), (v, .message (.held [104, 105])), (v, .line "dQ==")]
    let lines := (s.judgedLog turns).filter Event.isLine
    let t := (s.judgedAfter turns).judgedBy w
    let e : Event PlainLogin (Delivery.Fanout Unit) :=
      ⟨t, .line "cA==", CommandTable.builtin.dispatch (.line "cA==") t⟩
    s.auth = .over v ∧ e.logins = [("u", "p", true)] ∧ e.authenticates ∧
      Attempt lines "cA==" "u" "p" := by
  intro v w s turns lines t e
  have hauth : s.auth = .over v := rfl
  have hlogins : e.logins = [("u", "p", true)] := by decide +kernel
  obtain ⟨-, haccepted, -, hattempt⟩ := login_of_one_attempt hauth turns w (.line "cA==")
  obtain ⟨⟨text, htext, hone⟩, -⟩ := hattempt "u" "p" true (hlogins ▸ List.mem_singleton_self _)
  cases htext
  exact ⟨hauth, hlogins, haccepted.2 ⟨"u", "p", hlogins⟩, hone⟩

end SmtpReceiver
