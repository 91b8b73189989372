import SmtpReceiver.Proofs.Auth.Complete
import SmtpReceiver.Proofs.Auth.Visits
import SmtpReceiver.Proofs.Command.Parts

/-!
# Whether an exchange is under way

Whether an exchange is under way is kept in two places.  The progress has a flag, and the
composite has an active part.  `AUTH` sets the flag by the answer of the composite, and the
composite keeps a part active as long as it challenges.  So the two agree in every session
(`Session.Flagged`), whatever the parts are.

For PLAIN and LOGIN this leaves no room between two exchanges.  Without the flag they are as
they were made.  With it one of them is active, and a user name is kept only by LOGIN behind
the response that named it.
-/

namespace SmtpReceiver

open Auth
open Delivery (Handler)
open Framing (Frame)
open Text (Base64)

/-! ## The active part -/

namespace Auth.Composite

variable {α : Type} [Authenticator α] {c : Composite α} {line : String} {step : Step}

theorem active_ask (h : (c.ask line).result = .ok step) :
    (c.ask line).next.active.isSome = isChallenge (.ok step) := by
  cases hactive : c.activePart? with
  | none =>
      rw [ask_of_inactive hactive] at h
      cases h
  | some p =>
      rw [ask_of_active hactive] at h ⊢
      dsimp only at h ⊢
      rw [h]
      cases isChallenge (.ok step) with
      | true => rfl
      | false => rfl

/-- A part stays active exactly if the client was asked for more. -/
theorem active_answer (h : (c.answer line).result = .ok step) :
    (c.answer line).next.active.isSome = isChallenge (.ok step) := by
  cases hline : authLine? line with
  | none =>
      rw [answer_of_continues hline] at h ⊢
      exact active_ask h
  | some p =>
      obtain ⟨hnext, hresult⟩ := c.answer_of_begins hline
      rw [hresult] at h
      rw [hnext]
      exact active_ask h

end Auth.Composite

/-! ## The flag of the progress -/

section Flagged

variable {α δ : Type} {s : Session (Composite α) δ} {frame : Frame}
  {o : Outcome (Composite α) δ}

/-- An exchange is under way exactly if a part is active. -/
def Session.Flagged (s : Session (Composite α) δ) : Prop :=
  s.auth.active.isSome = s.progress.authenticating

variable [Authenticator α]

theorem Exchanged.flagged {line : String}
    (h : Exchanged s (Authenticator.answer s.auth line) o) : o.session.Flagged := by
  cases h with
  | challenge text hresult => exact Composite.active_answer hresult
  | done user hresult => exact Composite.active_answer hresult
  | fault => exact congrArg Option.isSome (Composite.active_reset _)

omit [Authenticator α] in
theorem Asked.flagged {mark : Mark} {asked : Call}
    {t : Turn Delivery.Call δ (Except Delivery.Rejection Unit)} (hasked : Asked s mark asked t o)
    (h : s.Flagged)
    (hmark : (s.progress.mark mark).authenticating = s.progress.authenticating) :
    o.session.Flagged := by
  cases hasked with
  | accepted => exact h.trans hmark.symm
  | refused => exact h

theorem Effect.flagged [Handler δ] (h : s.Flagged) (he : Effect s frame o) :
    o.session.Flagged := by
  cases he with
  | startTls => exact congrArg Option.isSome s.auth.active_reset
  | cancel => exact congrArg Option.isSome s.auth.active_reset
  | exchange text => exact (exchange_exchanged s text).flagged
  | sender address => exact (acceptSender_asked s address).flagged h rfl
  | recipient address => exact (acceptRecipient_asked s address).flagged h rfl
  | _ => exact h

end Flagged

/-! ## PLAIN and LOGIN -/

namespace Auth.Stage

/-- The mechanism that an exchange begins with is one that there is. -/
theorem start_ne_mismatch [Base64] {v : Validator} {mechanism : String} (rest : List String)
    (h : mechanism ∈ ["PLAIN", "LOGIN"]) :
    (start v mechanism rest).result ≠ .error .mechanismMismatch := by
  have hcheck (response : Option (String × String)) :
      (check v response).result ≠ .error .mechanismMismatch := by
    unfold check
    split
    next => rintro ⟨⟩
    next =>
      split
      next => rintro ⟨⟩
      next => rintro ⟨⟩
  obtain ⟨m, hm⟩ : ∃ m, Mechanism.ofName? mechanism = some m := by
    obtain rfl | h := List.mem_cons.1 h
    · exact ⟨.plain, by decide⟩
    · obtain rfl := List.mem_singleton.1 h
      exact ⟨.login, by decide⟩
  cases m with
  | plain =>
      cases rest with
      | nil =>
          simp only [start, hm]
          rintro ⟨⟩
      | cons response rest =>
          simp only [start, hm]
          exact hcheck _
  | login =>
      cases rest with
      | nil =>
          simp only [start, hm]
          rintro ⟨⟩
      | cons response rest =>
          simp only [start, hm]
          rintro ⟨⟩

end Auth.Stage

namespace AtStage

variable [Base64] {δ : Type} {log : List (Event PlainLogin δ)} {s : Session PlainLogin δ}
  {v : Validator} {stage : Stage}

/-- While an exchange is under way one part is active.  It is LOGIN if a user name is kept, and the
last two lines are its command and the response that named the user. -/
theorem active (h : AtStage log s v stage) (hflag : s.auth.active.isSome = true) :
    ∃ i part, s.auth.activePart? = some (i, part) ∧
      ∀ j login user, s.auth.parts[j]? = some (.inr login) → login.user = some user →
        j = i ∧ Came (.password user) (log.filter Event.isLine) := by
  obtain ⟨hauth, -, hcame⟩ := h
  rw [hauth] at hflag ⊢
  have hparts (j : Nat) (login : Login) (user : String)
      (hj : (PlainLogin.due v stage).parts[j]? = some (.inr login)) (huser : login.user = some user) :
      j = 1 ∧ stage.user? = some user := by
    cases j with
    | zero => cases hj
    | succ j =>
        cases j with
        | zero => cases hj; exact ⟨rfl, huser⟩
        | succ j => cases hj
  cases stage with
  | command => cases hflag
  | secret =>
      refine ⟨0, _, rfl, fun j login user hj huser => ?_⟩
      cases (hparts j login user hj huser).2
  | userName =>
      refine ⟨1, _, rfl, fun j login user hj huser => ?_⟩
      cases (hparts j login user hj huser).2
  | password kept =>
      refine ⟨1, _, rfl, fun j login user hj huser => ?_⟩
      obtain ⟨hj, hkept⟩ := hparts j login user hj huser
      cases hkept
      exact ⟨hj, hcame⟩

end AtStage

/-! ## What the client is told -/

section Mismatch

variable {α δ : Type} [Authenticator α] {s : Session α δ} {o : Outcome α δ}

theorem Auth.Fault.eq_mismatch {fault : Fault} (h : fault.reply = Fault.mechanismMismatch.reply) :
    fault = .mechanismMismatch := by
  cases fault with
  | mechanismMismatch => rfl
  | failed => exact absurd h (by decide)
  | initialResponseNotAllowed => exact absurd h (by decide)

/-- The client is told that no mechanism takes a line only if the authenticator says so. -/
theorem Exchanged.mismatch {t : Turn Auth.Call α Answer} (h : Exchanged s t o)
    (htold : o.answer = .ok Fault.mechanismMismatch.reply) :
    t.result = .error .mechanismMismatch := by
  have hreply {code : ReplyCode} {text : String}
      (hsame : Reply.line code text = Fault.mechanismMismatch.reply) : code = .notSupported :=
    congrArg Reply.code hsame
  cases h with
  | challenge => exact absurd (hreply (Except.ok.inj htold)) (by decide)
  | done => exact absurd (hreply (Except.ok.inj htold)) (by decide)
  | fault fault hresult =>
      obtain rfl := Fault.eq_mismatch (Except.ok.inj htold)
      exact hresult

end Mismatch

section Agreement

variable [Base64] {δ : Type} [Handler δ] {s : Session PlainLogin δ} {v w : Validator}

/-- Without an exchange under way, a command with a mechanism that there is finds it. -/
theorem dispatch_ne_mismatch {text verb mechanism : String} {rest : List String}
    (hauth : s.auth = .over v) (hidle : s.progress.authenticating = false)
    (hverb : CommandLine.verb? text = some Verb.auth)
    (hwords : CommandLine.arguments text = verb :: mechanism :: rest)
    (hmechanism : Text.upper mechanism ∈ Authenticator.mechanisms s.auth) :
    (Authenticator.answer s.auth text).result ≠ .error .mechanismMismatch ∧
      (CommandTable.builtin.dispatch (.line text) s).answer ≠ .ok Fault.mechanismMismatch.reply := by
  have hresult : (Authenticator.answer s.auth text).result ≠ .error .mechanismMismatch := by
    obtain ⟨-, word, words, hline, hupper⟩ := CommandLine.verb?_eq_some.1 hverb
    rw [CommandLine.arguments, hline] at hwords
    obtain ⟨rfl, rfl⟩ := List.cons.inj hwords
    have hline : authLine? text = some (Text.upper mechanism, rest) := by
      rw [authLine?, hline]
      exact if_pos (by rw [Text.sameFold, hupper]; rfl)
    rw [hauth, PlainLogin.over_eq_due, PlainLogin.answer_due]
    simp only [Turn.lift, Stage.answer, hline]
    rw [hauth] at hmechanism
    exact Stage.start_ne_mismatch rest hmechanism
  have hv : s.verb? (.line text) = some Verb.auth := by
    rw [Session.verb?, if_neg (Bool.eq_false_iff.1 hidle), hverb]
  refine ⟨hresult, fun htold => ?_⟩
  rw [dispatch_of_command hv CommandTable.command?_auth] at htold
  simp only [Command.auth, hidle, Bool.false_and, Bool.false_eq_true, if_false] at htold
  split at htold
  next =>
    have hcode : ReplyCode.badSequence = ReplyCode.notSupported :=
      congrArg Reply.code (Except.ok.inj htold)
    exact absurd hcode (by decide)
  next =>
    simp only [Command.beginExchange, hwords, List.contains_iff_mem.2 hmechanism, if_true] at htold
    exact hresult ((exchange_exchanged s text).mismatch htold)

theorem flagged_judgedAfter (hnew : s.New) (hauth : s.auth = .over v)
    (turns : List (Validator × Frame)) : (s.judgedAfter turns).Flagged := by
  have hstart : s.Flagged := by rw [Session.Flagged, hauth, hnew.progress]; rfl
  exact Session.judged_induction (P := fun _ t => t.Flagged) hstart
    (fun _ t w _ _ h he => Effect.flagged (s := t.judgedBy w) h he) turns

/-- In a session with PLAIN and LOGIN the flag of the progress tells their state.  Without an
exchange under way they are as they were made, and so is all that they will ever answer.  With one,
exactly one of them is active, and a user name is kept only if that is LOGIN and the last two lines
were its command and the response that named this user.  So a command that begins an exchange finds
the mechanism that it names. -/
theorem flag_tells_state (hnew : s.New) (hauth : s.auth = .over v)
    (turns : List (Validator × Frame)) (w : Validator) :
    let lines := (s.judgedLog turns).filter Event.isLine
    let t := (s.judgedAfter turns).judgedBy w
    (t.progress.authenticating = false → t.auth = .over w ∧
      ∀ later, t.judgedLog later = Session.judgedLog { t with auth := PlainLogin.over w } later) ∧
    (t.progress.authenticating = true → ∃ i part, t.auth.activePart? = some (i, part) ∧
      ∀ j login user, t.auth.parts[j]? = some (.inr login) → login.user = some user →
        j = i ∧ Came (.password user) lines) ∧
    ∀ text verb mechanism rest, t.progress.authenticating = false →
      CommandLine.verb? text = some Verb.auth →
      CommandLine.arguments text = verb :: mechanism :: rest →
      Text.upper mechanism ∈ Authenticator.mechanisms t.auth →
      (Authenticator.answer t.auth text).result ≠ .error .mechanismMismatch ∧
        (CommandTable.builtin.dispatch (.line text) t).answer
          ≠ .ok Fault.mechanismMismatch.reply := by
  intro lines t
  obtain ⟨_, stage, hstage⟩ := judged_stage hauth turns
  have hstage : AtStage (s.judgedLog turns) t w stage := hstage.judgedBy w
  have hflag : t.auth.active.isSome = t.progress.authenticating :=
    flagged_judgedAfter hnew hauth turns
  have hover (hidle : t.progress.authenticating = false) : t.auth = .over w := by
    rw [hstage.auth, hstage.eq_command hidle, PlainLogin.over_eq_due]
  refine ⟨fun hidle => ⟨hover hidle, fun later => ?_⟩, fun hunderway => ?_, ?_⟩
  · rw [← hover hidle]
  · exact hstage.active (hflag.trans hunderway)
  · intro text verb mechanism rest hidle hverb hwords hmechanism
    exact dispatch_ne_mismatch (hover hidle) hidle hverb hwords hmechanism

end Agreement

theorem flag_tells_state_password :
    let v : Validator := fun _ _ => false
    let s : Session PlainLogin (Delivery.Fanout Unit) :=
      { settings := {}, auth := .over v, delivery := { listeners := [], world := () } }
    let turns : List (Validator × Frame) :=
      [(v, .line "AUTH PLAIN"), (v, .line "AUTH LOGIN"), (v, .line "dQ==")]
    let t := (s.judgedAfter turns).judgedBy v
    s.New ∧ s.auth = .over v ∧ t.progress.authenticating = true ∧
      ∃ i part, t.auth.activePart? = some (i, part) := by
  intro v s turns t
  have hnew : s.New := ⟨rfl, rfl, rfl⟩
  have hauth : s.auth = .over v := rfl
  have hunderway : t.progress.authenticating = true := by decide +kernel
  obtain ⟨-, hactive, -⟩ := flag_tells_state hnew hauth turns v
  obtain ⟨i, part, hpart, -⟩ := hactive hunderway
  exact ⟨hnew, hauth, hunderway, i, part, hpart⟩

end SmtpReceiver
