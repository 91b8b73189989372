import SmtpReceiver.Proofs.Auth.Stages
import SmtpReceiver.Proofs.Command.Order
import SmtpReceiver.Proofs.Delivery.Transaction

/-!
# No mail before authentication

A client is `LoggedIn` by its log if an exchange has succeeded and TLS was not
started since.  The progress says the same.

The check before `MAIL`, `RCPT` and `DATA` alone does not keep mail out, for the
end of a message is not checked.  What does is that a sender, and so a binding,
is only there while the client is logged in (`Gated`).  An exchange begins only
for a client that is not, and starting TLS takes the sender back.
-/

namespace SmtpReceiver

open Auth (AlwaysOffers Authenticator PlainLogin Reachable)
open Delivery (Fanout Handler)
open Framing (Frame)

variable {α δ : Type}

/-! ## Being logged in -/

namespace Event

/-- An exchange has succeeded. -/
def authenticates (e : Event α δ) : Prop :=
  e.verb? = some Verb.auth ∧ e.code? = some .authenticated

/-- TLS is about to start. -/
def startsTls (e : Event α δ) : Prop := e.verb? = some Verb.startTls ∧ e.code? = some .ready

variable {e : Event α δ} {verb : String}

theorem not_authenticates_of_verb (hv : e.verb? = some verb) (hverb : verb ≠ Verb.auth) :
    ¬e.authenticates := fun h => hverb (Option.some.inj (hv.symm.trans h.1))

theorem not_startsTls_of_verb (hv : e.verb? = some verb) (hverb : verb ≠ Verb.startTls) :
    ¬e.startsTls := fun h => hverb (Option.some.inj (hv.symm.trans h.1))

end Event

/-- An exchange has succeeded, and TLS was not started since. -/
def LoggedIn (log : List (Event α δ)) : Prop :=
  ∃ before e after, log = before ++ e :: after ∧ e.authenticates ∧ ∀ e' ∈ after, ¬e'.startsTls

namespace LoggedIn

variable {log : List (Event α δ)} {e : Event α δ}

theorem not_nil : ¬LoggedIn ([] : List (Event α δ)) := by
  rintro ⟨before, e, after, heq, -⟩
  cases before with
  | nil => cases heq
  | cons first rest => cases heq

theorem of_authenticates (log : List (Event α δ)) (h : e.authenticates) : LoggedIn (log ++ [e]) :=
  ⟨log, e, [], rfl, h, by simp⟩

theorem concat_iff (hnot : ¬e.authenticates) :
    LoggedIn (log ++ [e]) ↔ LoggedIn log ∧ ¬e.startsTls := by
  constructor
  · rintro ⟨before, login, after, heq, hlogin, hafter⟩
    cases after using List.reverseRecOn with
    | nil =>
        obtain ⟨-, heq⟩ := List.append_inj' heq rfl
        cases heq
        exact absurd hlogin hnot
    | append_singleton after last =>
        rw [← List.cons_append, ← List.append_assoc] at heq
        obtain ⟨rfl, hlast⟩ := List.append_inj' heq rfl
        cases hlast
        refine ⟨⟨before, login, after, rfl, hlogin, ?_⟩, hafter e (by simp)⟩
        intro e' he'
        exact hafter e' (List.mem_append_left _ he')
  · rintro ⟨⟨before, login, after, rfl, hlogin, hafter⟩, htls⟩
    refine ⟨before, login, after ++ [e], by simp, hlogin, ?_⟩
    intro e' he'
    rcases List.mem_append.1 he' with he' | he'
    · exact hafter e' he'
    · rw [List.mem_singleton.1 he']
      exact htls

theorem concat_of_verb {verb : String} (hv : e.verb? = some verb)
    (hverb : verb ∉ [Verb.auth, Verb.startTls]) : LoggedIn (log ++ [e]) ↔ LoggedIn log := by
  simp only [List.mem_cons, List.not_mem_nil, or_false, not_or] at hverb
  rw [concat_iff (Event.not_authenticates_of_verb hv hverb.1)]
  exact and_iff_left (Event.not_startsTls_of_verb hv hverb.2)

end LoggedIn

/-! ## What collaborators leave -/

theorem Auth.Fault.code_ne (fault : Auth.Fault) : fault.reply.code ≠ .authenticated := by
  cases fault with
  | failed => decide
  | mechanismMismatch => decide
  | initialResponseNotAllowed => decide

section Leaves

variable [Authenticator α] {s : Session α δ} {o : Outcome α δ} {frame : Frame} {a : α}

omit [Authenticator α] in
theorem Asked.authenticated {mark : Mark} {asked : Call}
    {t : Turn Delivery.Call δ (Except Delivery.Rejection Unit)} (h : Asked s mark asked t o)
    (hmark : (s.progress.mark mark).authenticated = s.progress.authenticated) :
    o.session.progress.authenticated = s.progress.authenticated := by
  cases h with
  | accepted => exact hmark
  | refused => rfl

theorem Exchanged.reachable {line : String} (hreach : Reachable a s.auth)
    (h : Exchanged s (Authenticator.answer s.auth line) o) : Reachable a o.session.auth := by
  cases h with
  | challenge => exact hreach.answer line
  | done => exact hreach.answer line
  | fault => exact (hreach.answer line).reset

theorem Effect.reachable [Handler δ] (hreach : Reachable a s.auth) (he : Effect s frame o) :
    Reachable a o.session.auth := by
  cases he with
  | startTls => exact hreach.reset
  | cancel => exact hreach.reset
  | exchange text => exact (exchange_exchanged s text).reachable hreach
  | sender address => rw [(acceptSender_asked s address).session]; exact hreach
  | recipient address => rw [(acceptRecipient_asked s address).session]; exact hreach
  | _ => exact hreach

end Leaves

/-! ## The gate -/

/-- The progress says whether the client is logged in, and without that there is no sender. -/
structure Gated [Authenticator α] (a : α) (log : List (Event α δ)) (s : Session α δ) : Prop where
  auth : Reachable a s.auth
  loggedIn : s.progress.authenticated = true ↔ LoggedIn log
  sender : s.progress.hasSender = true → s.progress.authenticated = true

namespace Gated

variable [Authenticator α] {a : α} {log : List (Event α δ)} {s : Session α δ} {frame : Frame}
  {o : Outcome α δ}

theorem of_new (hnew : s.New) (hauth : s.auth = a) : Gated a [] s where
  auth := hauth ▸ .start
  loggedIn := by
    rw [hnew.progress]
    exact iff_of_false Bool.false_ne_true LoggedIn.not_nil
  sender hsender := by rw [hnew.progress] at hsender; cases hsender

/-- A client passes the check only if it is logged in. -/
theorem authenticated_of_gate (h : Gated a log s) (hoffers : AlwaysOffers a)
    (hgate : s.mustAuthenticate = false) : s.progress.authenticated = true := by
  have hsome : (Authenticator.mechanisms s.auth).isEmpty = false := by
    simpa using hoffers s.auth h.auth
  simpa [Session.mustAuthenticate, hsome] using hgate

theorem of_verb (h : Gated a log s) {verb : String} (hv : s.verb? frame = some verb)
    (hverb : verb ∉ [Verb.auth, Verb.startTls]) (hauth : Reachable a o.session.auth)
    (hauthenticated : o.session.progress.authenticated = s.progress.authenticated)
    (hsender : o.session.progress.hasSender = true → s.progress.authenticated = true) :
    Gated a (log ++ [⟨s, frame, o⟩]) o.session where
  auth := hauth
  loggedIn := by
    rw [hauthenticated, h.loggedIn, LoggedIn.concat_of_verb (e := ⟨s, frame, o⟩) hv hverb]
  sender := by rw [hauthenticated]; exact hsender

/-- An event without a login and without TLS leaves a client that is not logged in as it is. -/
theorem of_not_authenticated (h : Gated a log s) (hnot : s.progress.authenticated = false)
    (hauth : Reachable a o.session.auth) (hno : ¬Event.authenticates ⟨s, frame, o⟩)
    (hauthenticated : o.session.progress.authenticated = false)
    (hsender : o.session.progress.hasSender = true → s.progress.hasSender = true) :
    Gated a (log ++ [⟨s, frame, o⟩]) o.session where
  auth := hauth
  loggedIn := by
    have hlog : ¬LoggedIn log := by rw [← h.loggedIn, hnot]; exact Bool.false_ne_true
    rw [hauthenticated, LoggedIn.concat_iff hno]
    exact iff_of_false Bool.false_ne_true fun hlogged => hlog hlogged.1
  sender hsome := by
    have := h.sender (hsender hsome)
    rw [hnot] at this
    cases this

theorem exchanged (h : Gated a log s) {line : String}
    (hexchanged : Exchanged s (Authenticator.answer s.auth line) o)
    (hv : s.verb? frame = some Verb.auth) (hnot : s.progress.authenticated = false) :
    Gated a (log ++ [⟨s, frame, o⟩]) o.session := by
  have hreach := hexchanged.reachable h.auth
  have hcode : ReplyCode.challenge ≠ ReplyCode.authenticated := by decide
  cases hexchanged with
  | challenge text =>
      refine h.of_not_authenticated hnot hreach ?_ hnot id
      intro hlogin
      exact hcode (Option.some.inj hlogin.2)
  | done user =>
      exact ⟨hreach, iff_of_true rfl (LoggedIn.of_authenticates log ⟨hv, rfl⟩), fun _ => rfl⟩
  | fault fault =>
      refine h.of_not_authenticated hnot hreach ?_ rfl id
      intro hlogin
      exact fault.code_ne (Option.some.inj hlogin.2)

theorem stay (h : Gated a log s) {r : Reply} (hidle : Idle s frame r) :
    Gated a (log ++ [⟨s, frame, s.answer r⟩]) s where
  auth := h.auth
  loggedIn := by
    have hno : ¬Event.authenticates ⟨s, frame, s.answer r⟩ :=
      fun hlogin => hidle.auth hlogin.1 (Option.some.inj hlogin.2)
    have htls : ¬Event.startsTls ⟨s, frame, s.answer r⟩ :=
      fun hstarts => hidle.startTls hstarts.1 (Option.some.inj hstarts.2)
    rw [h.loggedIn, LoggedIn.concat_iff hno, and_iff_left htls]
  sender := h.sender

theorem of_startTls (hv : s.verb? frame = some Verb.startTls)
    (hready : Event.code? ⟨s, frame, o⟩ = some .ready)
    (hforgets : o.session.progress = s.progress.forget) (hauth : Reachable a o.session.auth) :
    Gated a (log ++ [⟨s, frame, o⟩]) o.session where
  auth := hauth
  loggedIn := by
    have hno : ¬Event.authenticates ⟨s, frame, o⟩ :=
      Event.not_authenticates_of_verb hv (by decide)
    rw [LoggedIn.concat_iff hno, hforgets]
    exact iff_of_false Bool.false_ne_true fun hlogged => hlogged.2 ⟨hv, hready⟩
  sender hsome := by rw [hforgets] at hsome; cases hsome

theorem effect [Handler δ] (h : Gated a log s) (hoffers : AlwaysOffers a) (he : Effect s frame o) :
    Gated a (log ++ [⟨s, frame, o⟩]) o.session := by
  have hreach := he.reachable h.auth
  cases he with
  | stay r hidle => exact h.stay hidle
  | greet r hv =>
      cases hv with
      | inl hv => exact h.of_verb hv (by decide) hreach rfl h.sender
      | inr hv => exact h.of_verb hv (by decide) hreach rfl h.sender
  | quit hv => exact h.of_verb hv (by decide) hreach rfl h.sender
  | data hv => exact h.of_verb hv (by decide) hreach rfl h.sender
  | reset hv => exact h.of_verb hv (by decide) hreach rfl nofun
  | deliver m hm => exact h.of_verb (Effect.verb_of_deliver hm) (by decide) hreach rfl nofun
  | startTls hv => exact of_startTls hv rfl rfl hreach
  | sender address hv hgate =>
      have hauthenticated := h.authenticated_of_gate hoffers hgate
      refine h.of_verb hv (by decide) hreach ?_ fun _ => hauthenticated
      exact (acceptSender_asked s address).authenticated rfl
  | recipient address hv hgate =>
      have hauthenticated := h.authenticated_of_gate hoffers hgate
      refine h.of_verb hv (by decide) hreach ?_ fun _ => hauthenticated
      exact (acceptRecipient_asked s address).authenticated rfl
  | cancel hv hnot =>
      refine h.of_not_authenticated hnot hreach ?_ hnot id
      intro hlogin
      exact absurd (Option.some.inj hlogin.2) (by decide)
  | exchange text _ hv hnot => exact h.exchanged (exchange_exchanged s text) hv hnot

end Gated

/-! ## Calls -/

namespace Call

/-- The delivery handler was given a sender or a recipient. -/
def isEnvelope : Call → Bool
  | .sender .. | .recipient .. => true
  | _ => false

/-- A listener was asked about a recipient, or was given a message. -/
def isListener : Call → Bool
  | .delivery _ => true
  | _ => false

end Call

/-- Beside the authenticator, only commands behind the check and the end of a message make calls. -/
theorem Effect.calls_gate [Authenticator α] [Handler δ] {s : Session α δ} {frame : Frame}
    {o : Outcome α δ} {c : Call} (he : Effect s frame o) (hc : c ∈ o.calls) :
    (∃ call, c = .auth call) ∨ s.mustAuthenticate = false ∨ ∃ m, o = s.deliver m := by
  have hauth : ∀ calls : List Auth.Call, c ∈ calls.map Call.auth → ∃ call, c = .auth call := by
    intro calls hc
    obtain ⟨call, -, rfl⟩ := List.mem_map.1 hc
    exact ⟨call, rfl⟩
  cases he with
  | startTls => exact .inl (hauth _ hc)
  | cancel => exact .inl (hauth _ hc)
  | exchange text =>
      obtain ⟨calls, hcalls⟩ := (exchange_exchanged s text).calls
      rw [hcalls] at hc
      exact .inl (hauth _ hc)
  | sender _ _ hgate => exact .inr (.inl hgate)
  | recipient _ _ hgate => exact .inr (.inl hgate)
  | deliver m => exact .inr (.inr ⟨m, rfl⟩)
  | stay | greet | quit | reset | data => cases hc

/-- A message that comes without a sender reaches no listener. -/
theorem Tracks.deliver_calls {ω : Type} {listeners : List (Delivery.Listener ω)}
    {log : List (Event α (Fanout ω))} {s : Session α (Fanout ω)} (h : Tracks listeners log s)
    (hsender : s.progress.hasSender = false) (m : Message) :
    (s.deliver m).calls = [.message s.peer m] := by
  have hnone : s.delivery.sender? = none := by
    have := h.hasSender
    rw [hsender] at this
    simpa using this.symm
  have hcalls : (s.deliver m).calls
      = .message s.peer m :: (Fanout.deliver s.peer s.delivery.senderText m s.delivery.bindings
          s.delivery.world).calls.map .delivery := rfl
  rw [hcalls, h.unbound hnone]
  rfl

section Mail

variable [Authenticator α] {a : α}

/-- If there is always a mechanism, the delivery handler is given a sender or a recipient only while
the client is logged in, and there is a sender only then.  Listeners are asked, and are given
messages, only then as well. -/
theorem mail_only_if_logged_in (hoffers : AlwaysOffers a) :
    (∀ (δ : Type) [Handler δ] (s : Session α δ), s.New → s.auth = a → ∀ frames,
      let t := s.after frames
      (t.progress.authenticated = true ↔ LoggedIn (s.log frames)) ∧
      (t.progress.hasSender = true → t.progress.authenticated = true) ∧
      ∀ frame, ∀ c ∈ (CommandTable.builtin.dispatch frame t).calls, c.isEnvelope = true →
        t.progress.authenticated = true) ∧
    (∀ (ω : Type) (s : Session α (Fanout ω)), s.New → Fresh s → s.auth = a → ∀ frames,
      let t := s.after frames
      ∀ frame, ∀ c ∈ (CommandTable.builtin.dispatch frame t).calls, c.isListener = true →
        t.progress.authenticated = true ∧ LoggedIn (s.log frames)) := by
  have hgated : ∀ (δ : Type) [Handler δ] (s : Session α δ), s.New → s.auth = a → ∀ frames,
      Gated a (s.log frames) (s.after frames) := by
    intro δ _ s hnew hauth frames
    exact Session.history_induction (P := Gated a) (.of_new hnew hauth)
      (fun _ _ _ _ h he => h.effect hoffers he) frames
  refine ⟨?_, ?_⟩
  · intro δ _ s hnew hauth frames t
    have h := hgated δ s hnew hauth frames
    refine ⟨h.loggedIn, h.sender, ?_⟩
    intro frame c hc henvelope
    rcases (dispatch_effect t frame).calls_gate hc with ⟨call, rfl⟩ | hgate | ⟨m, ho⟩
    · cases henvelope
    · exact h.authenticated_of_gate hoffers hgate
    · rw [ho] at hc
      cases hc with
      | head => cases henvelope
      | tail _ hc =>
          obtain ⟨call, -, rfl⟩ := List.mem_map.1 hc
          cases henvelope
  · intro ω s hnew hfresh hauth frames t frame c hc hlistener
    have h := hgated (Fanout ω) s hnew hauth frames
    have hauthenticated : t.progress.authenticated = true := by
      rcases (dispatch_effect t frame).calls_gate hc with ⟨call, rfl⟩ | hgate | ⟨m, ho⟩
      · cases hlistener
      · exact h.authenticated_of_gate hoffers hgate
      · have htracks : Tracks s.delivery.listeners (s.log frames) t :=
          Session.history_induction (P := Tracks s.delivery.listeners) hfresh.tracks
            (fun _ _ _ _ h he => h.effect he) frames
        cases hsender : t.progress.hasSender with
        | true => exact h.sender hsender
        | false =>
            rw [ho, htracks.deliver_calls hsender m, List.mem_singleton] at hc
            rw [hc] at hlistener
            cases hlistener
    exact ⟨hauthenticated, h.loggedIn.1 hauthenticated⟩

theorem mail_only_if_logged_in_plain :
    let v : Auth.Validator := fun user password => user == "u" && password == "p"
    let s : Session PlainLogin (Fanout Unit) :=
      { settings := {}
        auth := .over v
        delivery := { listeners := [.collector 7 .anyone], world := () } }
    let frames := [.line "HELO a", .line "AUTH PLAIN AHUAcA==", .line "MAIL FROM:<a@b>",
      .line "RCPT TO:<c@d>", .line "DATA"]
    let m : Message := .held [104, 105]
    let t := s.after frames
    let c : Call := .delivery (.deliver 7 t.peer "a@b" "c@d" m [104, 105] none)
    AlwaysOffers s.auth ∧ s.New ∧ Fresh s ∧
      c ∈ (CommandTable.builtin.dispatch (.message m) t).calls ∧ c.isListener = true ∧
      LoggedIn (s.log frames) := by
  intro v s frames m t c
  have hoffers : AlwaysOffers s.auth := PlainLogin.alwaysOffers_over v
  have hnew : s.New := ⟨rfl, rfl, rfl⟩
  have hfresh : Fresh s := ⟨rfl, rfl, rfl, rfl⟩
  have hmem : c ∈ (CommandTable.builtin.dispatch (.message m) t).calls := by decide +kernel
  have hlogged := (mail_only_if_logged_in hoffers).2 Unit s hnew hfresh rfl frames (.message m) c
    hmem rfl
  exact ⟨hoffers, hnew, hfresh, hmem, rfl, hlogged.2⟩

end Mail

end SmtpReceiver
