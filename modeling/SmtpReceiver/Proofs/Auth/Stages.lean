import SmtpReceiver.Auth.Composite

/-!
# Stages of an exchange

An authenticator is `Reachable` from another if answers and resets lead there.
It is *forgetful* if an exchange that is over leaves nothing behind, and neither
does a reset at any moment.

PLAIN and LOGIN together are three states in one: the active part, and in it
the user name that LOGIN keeps.  A `Stage` tells all of this by what the client
is due to send next.  `Stage.answer` answers a line at a stage, and PLAIN and
LOGIN do nothing else (`answer_due`).  So they are forgetful, for at the stage
of a command nothing is kept.
-/

namespace SmtpReceiver.Auth

open Text

/-! ## States that can be reached -/

section Reachable

variable {α : Type} [Authenticator α]

/-- The states that an authenticator can come to. -/
inductive Reachable (a : α) : α → Prop where
  | start : Reachable a a
  | answer {b : α} (line : String) : Reachable a b → Reachable a (Authenticator.answer b line).next
  | reset {b : α} : Reachable a b → Reachable a (Authenticator.reset b).next

/-- The authenticator has a mechanism, whatever happens. -/
def AlwaysOffers (a : α) : Prop := ∀ b, Reachable a b → Authenticator.mechanisms b ≠ []

/-- An exchange that is over leaves nothing behind. -/
structure Forgetful (a : α) : Prop where
  done : ∀ {b line user}, Reachable a b → (Authenticator.answer b line).result = .ok (.done user) →
    (Authenticator.answer b line).next = a
  reset : ∀ {b}, Reachable a b → (Authenticator.reset b).next = a

variable {β : Type} [Authenticator β] {a : α} {b : β}

theorem Reachable.inl {c : α ⊕ β} (h : Reachable (.inl a) c) :
    ∃ a', c = .inl a' ∧ Reachable a a' := by
  induction h with
  | start => exact ⟨a, rfl, .start⟩
  | answer line _ ih =>
      obtain ⟨a', rfl, h⟩ := ih
      exact ⟨_, rfl, h.answer line⟩
  | reset _ ih =>
      obtain ⟨a', rfl, h⟩ := ih
      exact ⟨_, rfl, h.reset⟩

theorem Reachable.inr {c : α ⊕ β} (h : Reachable (.inr b) c) :
    ∃ b', c = .inr b' ∧ Reachable b b' := by
  induction h with
  | start => exact ⟨b, rfl, .start⟩
  | answer line _ ih =>
      obtain ⟨b', rfl, h⟩ := ih
      exact ⟨_, rfl, h.answer line⟩
  | reset _ ih =>
      obtain ⟨b', rfl, h⟩ := ih
      exact ⟨_, rfl, h.reset⟩

theorem Forgetful.inl (h : Forgetful a) : Forgetful (.inl a : α ⊕ β) where
  done hreachable hdone := by
    obtain ⟨a', rfl, ha'⟩ := hreachable.inl
    exact congrArg Sum.inl (h.done ha' hdone)
  reset hreachable := by
    obtain ⟨a', rfl, ha'⟩ := hreachable.inl
    exact congrArg Sum.inl (h.reset ha')

theorem Forgetful.inr (h : Forgetful b) : Forgetful (.inr b : α ⊕ β) where
  done hreachable hdone := by
    obtain ⟨b', rfl, hb'⟩ := hreachable.inr
    exact congrArg Sum.inr (h.done hb' hdone)
  reset hreachable := by
    obtain ⟨b', rfl, hb'⟩ := hreachable.inr
    exact congrArg Sum.inr (h.reset hb')

end Reachable

theorem Open.forgetful : Forgetful ({} : Open) := ⟨fun _ _ => rfl, fun _ => rfl⟩

/-! ## Stages -/

/-- What the client is due to send. -/
inductive Stage where
  /-- A command that begins an exchange. -/
  | command
  /-- The response of PLAIN. -/
  | secret
  /-- The user name of LOGIN. -/
  | userName
  /-- The password of LOGIN, for this user name. -/
  | password (user : String)
deriving DecidableEq, Repr

namespace Stage

/-- The number of the active part. -/
def active : Stage → Option Nat
  | command => none
  | secret => some 0
  | userName | password _ => some 1

/-- The user name that is kept. -/
def user? : Stage → Option String
  | password user => some user
  | _ => none

/-- Ends the exchange with a user name and a password, if the client sent them. -/
def check (v : Validator) : Option (String × String) → Turn Call Stage Answer
  | none => ⟨.error .failed, command, []⟩
  | some (user, pass) =>
    if v user pass then ⟨.ok (.done user), command, [.login user pass true]⟩
    else ⟨.error .failed, command, [.login user pass false]⟩

theorem next_check (v : Validator) (response : Option (String × String)) :
    (check v response).next = command := by
  unfold check
  split
  next => rfl
  next => split <;> rfl

theorem isChallenge_check (v : Validator) (response : Option (String × String)) :
    isChallenge (check v response).result = false := by
  unfold check
  split
  next => rfl
  next => split <;> rfl

variable [Base64]

/-- Answers a line that begins an exchange. -/
def start (v : Validator) (mechanism : String) (rest : List String) : Turn Call Stage Answer :=
  match Mechanism.ofName? mechanism, rest with
  | none, _ => ⟨.error .mechanismMismatch, command, []⟩
  | some .plain, [] => ⟨.ok (.challenge ""), secret, []⟩
  | some .plain, response :: _ => check v (plainSecret? response)
  | some .login, [] => ⟨loginPrompt "Username:", userName, []⟩
  | some .login, _ :: _ => ⟨.error .initialResponseNotAllowed, command, []⟩

/-- Answers a line that continues an exchange. -/
def respond (v : Validator) (line : String) : Stage → Turn Call Stage Answer
  | command => ⟨.error .mechanismMismatch, command, []⟩
  | secret => check v (plainSecret? (trim line))
  | userName =>
    match loginResponse? line with
    | none => ⟨.error .failed, command, []⟩
    | some text => ⟨loginPrompt "Password:", password text, []⟩
  | password user => check v ((loginResponse? line).map fun text => (user, text))

/-- Answers a line. -/
def answer (v : Validator) (stage : Stage) (line : String) : Turn Call Stage Answer :=
  match authLine? line with
  | some (mechanism, rest) => start v mechanism rest
  | none => stage.respond v line

/-- An exchange that is not continued is over. -/
theorem next_of_not_challenge {v : Validator} {stage : Stage} {line : String}
    (h : isChallenge (stage.answer v line).result = false) :
    (stage.answer v line).next = command := by
  have hprompt : ∀ text, isChallenge (loginPrompt text) ≠ false := nofun
  unfold answer at h ⊢
  cases hline : authLine? line with
  | some p =>
      obtain ⟨mechanism, rest⟩ := p
      simp only [hline, start] at h ⊢
      split at h
      · rfl
      · cases h
      · exact next_check _ _
      · cases h
      · rfl
  | none =>
      simp only [hline] at h ⊢
      cases stage with
      | command => rfl
      | secret =>
          simp only [respond]
          exact next_check _ _
      | password user =>
          simp only [respond]
          exact next_check _ _
      | userName =>
          simp only [respond] at h ⊢
          split at h
          · rfl
          · cases h

end Stage

/-! ## PLAIN and LOGIN at a stage -/

namespace PlainLogin

/-- PLAIN and LOGIN when the client is due to send this. -/
def due (v : Validator) (stage : Stage) : PlainLogin :=
  { parts := [.inl { validator := v }, .inr { validator := v, user := stage.user? }]
    active := stage.active }

theorem over_eq_due (v : Validator) : PlainLogin.over v = due v .command := rfl

variable [Base64]

theorem mechanisms_due (v : Validator) (stage : Stage) :
    Authenticator.mechanisms (due v stage) = ["PLAIN", "LOGIN"] := rfl

theorem reset_due (v : Validator) (stage : Stage) :
    Authenticator.reset (due v stage) = ⟨(), due v .command, []⟩ := by
  cases stage with
  | command => rfl
  | secret => rfl
  | userName => rfl
  | password user => rfl

theorem activate_due (v : Validator) (mechanism : String) :
    (due v .command).activate mechanism
      = { due v .command with active := match Mechanism.ofName? mechanism with
          | some .plain => some 0
          | some .login => some 1
          | none => none } := by
  have hplain : (Composite.offers mechanism (Sum.inl { validator := v } : Plain ⊕ Login))
      = sameFold "PLAIN" mechanism := Bool.or_false _
  have hlogin : (Composite.offers mechanism (Sum.inr { validator := v } : Plain ⊕ Login))
      = sameFold "LOGIN" mechanism := Bool.or_false _
  simp only [Composite.activate, due, Stage.user?, List.findIdx?_cons, hplain, hlogin,
    Mechanism.ofName?, List.find?_cons, Mechanism.name]
  cases sameFold "PLAIN" mechanism with
  | true => rfl
  | false => cases sameFold "LOGIN" mechanism <;> rfl

theorem check_plain (v : Validator) (response : String) :
    ({ validator := v } : Plain).check response
      = (Stage.check v (plainSecret? response)).lift fun _ => { validator := v } := by
  unfold Plain.check
  cases plainSecret? response with
  | none => rfl
  | some p =>
      obtain ⟨user, pass⟩ := p
      simp only [Stage.check]
      split <;> rfl

/-- PLAIN is active. -/
theorem ask_plain (v : Validator) (line : String) :
    let t := Plain.answer { validator := v } line
    Composite.ask { due v .command with active := some 0 } line
      = ⟨t.result,
          { due v .command with
            parts := [.inl t.next, .inr { validator := v }]
            active := if isChallenge t.result then some 0 else none },
          t.calls⟩ := rfl

/-- LOGIN is active. -/
theorem ask_login (v : Validator) (stage : Stage) (line : String) :
    let t := Login.answer { validator := v, user := stage.user? } line
    Composite.ask { due v stage with active := some 1 } line
      = ⟨t.result,
          { due v stage with
            parts := [.inl { validator := v }, .inr t.next]
            active := if isChallenge t.result then some 1 else none },
          t.calls⟩ := rfl

theorem ask_plain_check {v : Validator} {line : String} {response : String}
    (h : Plain.answer { validator := v } line = ({ validator := v } : Plain).check response) :
    Composite.ask { due v .command with active := some 0 } line
      = (Stage.check v (plainSecret? response)).lift (due v) := by
  refine (ask_plain v line).trans ?_
  simp only [h, check_plain, Turn.lift, Stage.isChallenge_check, Stage.next_check]
  rfl

/-- PLAIN and LOGIN answer a line as their stage does. -/
theorem answer_due (v : Validator) (stage : Stage) (line : String) :
    Authenticator.answer (due v stage) line = (stage.answer v line).lift (due v) := by
  show Composite.answer (due v stage) line = _
  unfold Composite.answer Stage.answer
  cases h : authLine? line with
  | none =>
      cases stage with
      | command => rfl
      | secret =>
          simp only [Stage.respond]
          exact ask_plain_check (by simp only [Plain.answer, h])
      | userName =>
          refine (ask_login v .userName line).trans ?_
          simp only [Login.answer, h, Stage.respond, Stage.user?]
          cases loginResponse? line with
          | none => rfl
          | some text => rfl
      | password user =>
          refine (ask_login v (.password user) line).trans ?_
          simp only [Login.answer, h, Stage.respond, Stage.user?]
          cases loginResponse? line with
          | none => rfl
          | some text =>
              simp only [Option.map_some, Stage.check]
              split <;> rfl
  | some p =>
      obtain ⟨mechanism, rest⟩ := p
      have hreset : Composite.reset (due v stage) = ⟨(), due v .command, []⟩ := reset_due v stage
      simp only [hreset, activate_due, List.nil_append]
      cases hname : Mechanism.ofName? mechanism with
      | none =>
          simp only [Stage.start, hname]
          rfl
      | some m =>
          cases m with
          | plain =>
              cases rest with
              | nil =>
                  refine (ask_plain v line).trans ?_
                  simp only [Plain.answer, h, hname, Stage.start, ne_eq, not_true, if_false]
                  rfl
              | cons response rest =>
                  simp only [Stage.start, hname]
                  refine ask_plain_check ?_
                  simp only [Plain.answer, h, hname, ne_eq, not_true, if_false]
          | login =>
              refine (ask_login v .command line).trans ?_
              cases rest with
              | nil =>
                  simp only [Login.answer, h, hname, Stage.start, ne_eq, not_true, if_false]
                  rfl
              | cons response rest =>
                  simp only [Login.answer, h, hname, Stage.start, ne_eq, not_true, if_false,
                    reduceCtorEq, not_false_eq_true, if_true]
                  rfl

theorem reachable_over {v : Validator} {p : PlainLogin} (h : Reachable (PlainLogin.over v) p) :
    ∃ stage, p = due v stage := by
  induction h with
  | start => exact ⟨.command, over_eq_due v⟩
  | answer line _ ih =>
      obtain ⟨stage, rfl⟩ := ih
      rw [answer_due]
      exact ⟨_, rfl⟩
  | reset _ ih =>
      obtain ⟨stage, rfl⟩ := ih
      rw [reset_due]
      exact ⟨_, rfl⟩

theorem alwaysOffers_over (v : Validator) : AlwaysOffers (PlainLogin.over v) := by
  intro p h
  obtain ⟨stage, rfl⟩ := reachable_over h
  rw [mechanisms_due]
  exact List.cons_ne_nil _ _

theorem forgetful_over (v : Validator) : Forgetful (PlainLogin.over v) where
  done h hdone := by
    obtain ⟨stage, rfl⟩ := reachable_over h
    rw [answer_due] at hdone ⊢
    have hover : isChallenge (stage.answer v _).result = false := congrArg isChallenge hdone
    exact (congrArg (due v) (Stage.next_of_not_challenge hover)).trans (over_eq_due v).symm
  reset h := by
    obtain ⟨stage, rfl⟩ := reachable_over h
    rw [reset_due]
    exact (over_eq_due v).symm

end PlainLogin

/-- No authentication, or PLAIN and LOGIN with a validator. -/
def standard : Option Validator → Open ⊕ PlainLogin
  | none => .inl {}
  | some v => .inr (.over v)

theorem standard_forgetful [Base64] (v? : Option Validator) : Forgetful (standard v?) := by
  cases v? with
  | none => exact Open.forgetful.inl
  | some v => exact (PlainLogin.forgetful_over v).inr

end SmtpReceiver.Auth
