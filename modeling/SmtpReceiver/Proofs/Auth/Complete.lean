import SmtpReceiver.Proofs.Auth.Attempt
import SmtpReceiver.Proofs.Text.Words

/-!
# Whom LOGIN lets in

A client that sends the base64 forms of a user name and a password is asked for
both and is let in, if the validator accepts them (`login_lets_in`).

There are four texts for which this fails.  A line that is the word `AUTH`, but
for the case of its letters, begins an exchange, also where a response is due.
The letters are in the base64 alphabet, and of the sixteen ways to write the word
four are the base64 form of a text (`mem_mistaken_iff`).  A client that has one of
them as user name or password gets `504` for it, and no login is tried.
-/

namespace SmtpReceiver

open Auth (Authenticator PlainLogin Reachable Stage Validator authLine? loginPrompt loginResponse?)
open Delivery (Handler)
open Framing (Frame)
open Text (Base64 LawfulBase64 decode encode encodeBase64 sameFold)

namespace Auth

/-- The line by which a client sends a text. -/
def response [Base64] (text : String) : String := Base64.encode (encode text)

/-- The texts that are sent by a line which is taken for a command. -/
def mistaken : List String := ["\u0001KG", "\u0001Ka", "iKG", "iKa"]

/-! ## The word AUTH -/

/-- A character is the letter that it raises to, or the small one. -/
theorem eq_of_toUpper {c d : Char} (h : c.toUpper = d) : c = d ∨ c = Char.ofNat (d.toNat + 32) := by
  have hletters : ∀ n < 26,
      Char.ofNat (n + 97) = Char.ofNat ((Char.ofNat (n + 97)).toUpper.toNat + 32) := by
    decide
  subst h
  obtain hc | ⟨n, hn, rfl⟩ := Text.toUpper_eq_self_or c
  · exact .inl hc.symm
  · exact .inr (hletters n hn)

/-- The sixteen ways to write the word. -/
def spellings : List (List Char) :=
  ['A', 'a'].flatMap fun a => ['U', 'u'].flatMap fun b => ['T', 't'].flatMap fun c =>
    ['H', 'h'].map fun d => [a, b, c, d]

theorem mem_spellings {line : String} (h : sameFold line "AUTH" = true) :
    line.toList ∈ spellings := by
  have hupper : line.toList.map Char.toUpper = ['A', 'U', 'T', 'H'] := by
    have := congrArg String.toList (eq_of_beq h)
    rw [Text.upper, String.toList_ofList] at this
    rw [this]
    decide
  obtain ⟨a, l, hline, ha, hupper⟩ := List.map_eq_cons_iff.1 hupper
  obtain ⟨b, l, rfl, hb, hupper⟩ := List.map_eq_cons_iff.1 hupper
  obtain ⟨c, l, rfl, hc, hupper⟩ := List.map_eq_cons_iff.1 hupper
  obtain ⟨d, l, rfl, hd, hupper⟩ := List.map_eq_cons_iff.1 hupper
  obtain rfl := List.map_eq_nil_iff.1 hupper
  simp only [spellings, List.mem_flatMap, List.mem_map]
  refine ⟨a, ?_, b, ?_, c, ?_, d, ?_, hline.symm⟩
  · simpa using eq_of_toUpper ha
  · simpa using eq_of_toUpper hb
  · simpa using eq_of_toUpper hc
  · simpa using eq_of_toUpper hd

/-- Twelve of the sixteen are not the form of a text, for their bytes are not those of one. -/
theorem mem_mistaken_of_spelling : ∀ cs ∈ spellings, ∀ bs ∈ Text.base64Bytes? cs,
    encode (decode bs) = bs → decode bs ∈ mistaken := by
  decide

section Response

variable [Base64] [LawfulBase64]

theorem mem_mistaken_iff {text : String} :
    text ∈ mistaken ↔ sameFold (response text) "AUTH" = true := by
  have hform : response text = encodeBase64 (encode text) := LawfulBase64.encode_eq (encode text)
  rw [hform]
  constructor
  · intro h
    have hall : ∀ text ∈ mistaken, sameFold (encodeBase64 (encode text)) "AUTH" = true := by
      decide +kernel
    exact hall text h
  · intro h
    have hbytes : Text.base64Bytes? (encodeBase64 (encode text)).toList = some (encode text) :=
      Text.decodeBase64?_encodeBase64 (encode text)
    have hmem := mem_mistaken_of_spelling _ (mem_spellings h) (encode text) hbytes
    rw [Text.decode_encode] at hmem
    exact hmem rfl

/-! ## Responses -/

theorem loginResponse?_response (text : String) : loginResponse? (response text) = some text := by
  rw [loginResponse?, response, Text.trim_base64, LawfulBase64.decode?_encode,
    Option.map_some, Text.decode_encode]

/-- A response is one word at most. -/
theorem words_response (text : String) :
    Text.words (response text) = if text = "" then [] else [response text] := by
  split
  next h =>
    subst h
    rw [response, LawfulBase64.encode_eq]
    decide
  next h =>
    refine Text.words_base64 fun hnil => h ?_
    rw [← Text.decode_encode text, hnil]
    rfl

theorem length_words_response (text : String) : (Text.words (response text)).length ≤ 1 := by
  rw [words_response]
  split
  next => exact Nat.zero_le 1
  next => exact Nat.le_refl 1

theorem authLine?_response (text : String) :
    authLine? (response text) = if text ∈ mistaken then some ("", []) else none := by
  rw [authLine?, words_response]
  by_cases hempty : text = ""
  · have hnot : "" ∉ mistaken := by decide
    rw [if_pos hempty, hempty, if_neg hnot]
  · rw [if_neg hempty]
    simp only [mem_mistaken_iff]
    rfl

end Response

/-! ## Stages -/

section Stages

variable [Base64] (v : Validator) (stage : Stage)

theorem answer_authLogin :
    stage.answer v "AUTH LOGIN" = ⟨loginPrompt "Username:", .userName, []⟩ := by
  have hline : authLine? "AUTH LOGIN" = some ("LOGIN", []) := by decide
  have hname : Mechanism.ofName? "LOGIN" = some .login := by decide
  simp only [Stage.answer, hline, Stage.start, hname]

variable [LawfulBase64]

theorem answer_mistaken {text : String} (h : text ∈ mistaken) :
    stage.answer v (response text) = ⟨.error .mechanismMismatch, .command, []⟩ := by
  have hname : Mechanism.ofName? "" = none := by decide
  simp only [Stage.answer, authLine?_response, if_pos h, Stage.start, hname]

theorem answer_userName {user : String} (h : user ∉ mistaken) :
    Stage.answer v .userName (response user) = ⟨loginPrompt "Password:", .password user, []⟩ := by
  simp only [Stage.answer, authLine?_response, if_neg h, Stage.respond, loginResponse?_response]

theorem answer_password {user pass : String} (h : pass ∉ mistaken) (haccepts : v user pass = true) :
    Stage.answer v (.password user) (response pass)
      = ⟨.ok (.done user), .command, [.login user pass true]⟩ := by
  simp only [Stage.answer, authLine?_response, if_neg h, Stage.respond, loginResponse?_response,
    Option.map_some, Stage.check, haccepts, if_true]

end Stages

end Auth

open Auth

/-! ## Sessions -/

variable {δ : Type}

section Session

variable [Base64] [Handler δ] {s : Session PlainLogin δ} {v : Validator} {stage : Stage}

theorem CommandTable.command?_auth :
    (builtin (α := PlainLogin) (δ := δ)).command? Verb.auth = some .auth :=
  command?_of_mem (c := .auth) (by simp [builtinCommands])

/-- A command that names a mechanism begins an exchange. -/
theorem dispatch_begins {line mechanism : String} {rest : List String}
    (hauth : s.auth = PlainLogin.due v stage) (hidle : s.progress.authenticating = false)
    (hnot : s.progress.authenticated = false) (hverb : CommandLine.verb? line = some Verb.auth)
    (hwords : CommandLine.arguments line = "AUTH" :: mechanism :: rest)
    (hmechanism : Text.upper mechanism ∈ ["PLAIN", "LOGIN"]) :
    CommandTable.builtin.dispatch (.line line) s = Command.exchange s line := by
  have hv : s.verb? (.line line) = some Verb.auth := by
    rw [Session.verb?, if_neg (Bool.eq_false_iff.1 hidle), hverb]
  have hoffers : (Authenticator.mechanisms s.auth).contains (Text.upper mechanism) = true := by
    rw [hauth, PlainLogin.mechanisms_due]
    exact List.contains_iff_mem.2 hmechanism
  rw [dispatch_of_command hv CommandTable.command?_auth]
  simp only [Command.auth, hnot, hidle, Command.beginExchange, hwords, hoffers, Bool.false_and,
    Bool.false_eq_true, if_false, if_true]

/-- No response is a lone asterisk, so none cancels the exchange. -/
theorem dispatch_response [LawfulBase64] (hexchange : s.progress.authenticating = true)
    (hnot : s.progress.authenticated = false) (text : String) :
    CommandTable.builtin.dispatch (.line (response text)) s
      = Command.exchange s (response text) := by
  have hcancel : Text.trim (response text) ≠ Command.cancelLine := by
    have hform : response text = encodeBase64 (encode text) := LawfulBase64.encode_eq (encode text)
    have hread := Text.decodeBase64?_encodeBase64 (encode text)
    rw [response, Text.trim_base64]
    intro h
    rw [← hform, response, h] at hread
    cases hread
  simp only [CommandTable.dispatch, CommandTable.dispatchLine, hexchange, CommandTable.run,
    CommandTable.command?_auth, Command.auth, hnot, if_neg hcancel, Bool.false_and,
    Bool.false_eq_true, if_false, if_true]

omit [Handler δ] in
theorem exchange_challenge {line text : String} {next : Stage}
    (hauth : s.auth = PlainLogin.due v stage)
    (h : stage.answer v line = ⟨.ok (.challenge text), next, []⟩) :
    Command.exchange s line
      = { session :=
            { s with
              progress := s.progress.mark (.authenticating true)
              auth := PlainLogin.due v next }
          answer := .ok (.line .challenge text) } := by
  simp only [Command.exchange, hauth, PlainLogin.answer_due, h]
  rfl

/-- An exchange is under way, and this is due in it. -/
structure Awaits (v : Validator) (stage : Stage) (s : Session PlainLogin δ) : Prop where
  auth : s.auth = PlainLogin.due v stage
  exchange : s.progress.authenticating = true
  fresh : s.progress.authenticated = false

theorem begins_login (hauth : s.auth = PlainLogin.due v stage)
    (hidle : s.progress.authenticating = false) (hnot : s.progress.authenticated = false) :
    let o := CommandTable.builtin.dispatch (.line "AUTH LOGIN") s
    o.answer = .ok (prompt "Username:") ∧ o.calls = [] ∧ Awaits v .userName o.session := by
  have hwords : CommandLine.arguments "AUTH LOGIN" = ["AUTH", "LOGIN"] := by decide
  rw [dispatch_begins hauth hidle hnot (by decide) hwords (by decide),
    exchange_challenge hauth (answer_authLogin v stage)]
  exact ⟨rfl, rfl, rfl, rfl, hnot⟩

namespace Awaits

variable [LawfulBase64]

theorem names {user : String} (h : Awaits v .userName s) (huser : user ∉ mistaken) :
    let o := CommandTable.builtin.dispatch (.line (response user)) s
    o.answer = .ok (prompt "Password:") ∧ o.calls = [] ∧ Awaits v (.password user) o.session := by
  rw [dispatch_response h.exchange h.fresh, exchange_challenge h.auth (answer_userName v huser)]
  exact ⟨rfl, rfl, rfl, rfl, h.fresh⟩

theorem accepted {user pass : String} (h : Awaits v (.password user) s) (hpass : pass ∉ mistaken)
    (haccepts : v user pass = true) :
    let o := CommandTable.builtin.dispatch (.line (response pass)) s
    o.answer = .ok (.line .authenticated "Authentication successful") ∧
      o.calls = [.auth (.login user pass true)] ∧ o.session.peer.user = some user ∧
      o.session.progress.authenticated = true := by
  rw [dispatch_response h.exchange h.fresh, Command.exchange, h.auth, PlainLogin.answer_due,
    answer_password v hpass haccepts]
  exact ⟨rfl, rfl, rfl, rfl⟩

/-- A response that is taken for a command ends the exchange. -/
theorem refused {text : String} (h : Awaits v stage s) (htext : text ∈ mistaken) :
    let o := CommandTable.builtin.dispatch (.line (response text)) s
    o.answer = .ok Fault.mechanismMismatch.reply ∧ o.calls = [] ∧
      o.session.auth = PlainLogin.due v .command ∧ o.session.progress.authenticating = false ∧
      o.session.progress.authenticated = false := by
  rw [dispatch_response h.exchange h.fresh, Command.exchange, h.auth, PlainLogin.answer_due,
    answer_mistaken v stage htext]
  exact ⟨rfl, rfl, rfl, rfl, rfl⟩

end Awaits

/-- A line of one word makes no login while no exchange is under way. -/
theorem Effect.quiet_of_word {text : String} {o : Outcome PlainLogin δ}
    (he : Effect s (.line text) o) (hauth : s.auth = PlainLogin.due v stage)
    (hidle : s.progress.authenticating = false)
    (hword : (CommandLine.arguments text).length ≤ 1) :
    Event.logins ⟨s, .line text, o⟩ = [] ∧
      (o.session.progress.authenticated = true → s.progress.authenticated = true) := by
  have hreset : (Authenticator.reset s.auth).calls = [] := by rw [hauth, PlainLogin.reset_due]
  cases he with
  | stay => exact ⟨rfl, id⟩
  | greet => exact ⟨rfl, id⟩
  | quit => exact ⟨rfl, id⟩
  | reset => exact ⟨rfl, id⟩
  | data => exact ⟨rfl, id⟩
  | startTls => exact ⟨by simp [Event.logins, Session.forget, hreset], nofun⟩
  | deliver m => exact ⟨logins_delivery _, id⟩
  | cancel _ _ hexchange =>
      rw [hidle] at hexchange
      cases hexchange
  | sender address =>
      have hasked := acceptSender_asked s address
      exact ⟨AtStage.asked_logins hasked rfl, fun h => (hasked.authenticated rfl).symm.trans h⟩
  | recipient address =>
      have hasked := acceptRecipient_asked s address
      exact ⟨AtStage.asked_logins hasked rfl, fun h => (hasked.authenticated rfl).symm.trans h⟩
  | exchange line hline _ _ hwords =>
      cases hline
      obtain ⟨verb, mechanism, rest, harguments, -⟩ := hwords hidle
      rw [harguments] at hword
      simp at hword

end Session

/-- A client that names a user and a password to LOGIN is asked for both, and is let in as that user
by one login, if the validator accepts them.  It is not if one of them is sent by a line that is
taken for a command.  Then it gets `504`, and no login is made. -/
theorem login_lets_in [Base64] [LawfulBase64] [Handler δ] (v : Validator) (s : Session PlainLogin δ)
    (hauth : Reachable (PlainLogin.over v) s.auth) (hidle : s.progress.authenticating = false)
    (hnot : s.progress.authenticated = false) (user pass : String)
    (haccepts : v user pass = true) :
    let lines := [.line "AUTH LOGIN", .line (response user), .line (response pass)]
    let log := s.log lines
    let t := s.after lines
    (user ∉ mistaken ∧ pass ∉ mistaken →
      log.map (fun e => e.outcome.answer)
        = [.ok (prompt "Username:"), .ok (prompt "Password:"),
          .ok (.line .authenticated "Authentication successful")] ∧
      log.flatMap (fun e => e.outcome.calls) = [.auth (.login user pass true)] ∧
      t.peer.user = some user ∧ t.progress.authenticated = true) ∧
    (user ∈ mistaken ∨ pass ∈ mistaken →
      .ok Fault.mechanismMismatch.reply ∈ log.map (fun e => e.outcome.answer) ∧
      log.flatMap Event.logins = [] ∧ t.progress.authenticated = false) := by
  intro lines log t
  obtain ⟨stage, hstage⟩ := PlainLogin.reachable_over hauth
  let o₁ := CommandTable.builtin.dispatch (.line "AUTH LOGIN") s
  let o₂ := CommandTable.builtin.dispatch (.line (response user)) o₁.session
  let o₃ := CommandTable.builtin.dispatch (.line (response pass)) o₂.session
  have hlog : log = [⟨s, .line "AUTH LOGIN", o₁⟩, ⟨o₁.session, .line (response user), o₂⟩,
    ⟨o₂.session, .line (response pass), o₃⟩] := rfl
  have ht : t = o₃.session := rfl
  obtain ⟨hprompt, hcalls₁, hawaits⟩ : _ ∧ _ ∧ Awaits v .userName o₁.session :=
    begins_login hstage hidle hnot
  have hquiet : ∀ {e : Event PlainLogin δ}, e.outcome.calls = [] → e.logins = [] := by
    intro e hcalls
    rw [Event.logins, hcalls]
    rfl
  rw [hlog, ht]
  simp only [List.map_cons, List.map_nil, List.flatMap_cons, List.flatMap_nil, List.append_nil]
  by_cases huser : user ∈ mistaken
  · -- The password is a command of one word then.
    obtain ⟨hanswer, hcalls₂, hauth₂, hidle₂, hnot₂⟩ := hawaits.refused huser
    obtain ⟨hlogins, hkeeps⟩ := (dispatch_effect o₂.session (.line (response pass))).quiet_of_word
      hauth₂ hidle₂ (length_words_response pass)
    refine ⟨fun h => absurd huser h.1, fun _ => ⟨?_, ?_, ?_⟩⟩
    · exact List.mem_cons_of_mem _ (List.mem_cons.2 (.inl hanswer.symm))
    · rw [hquiet hcalls₁, hquiet hcalls₂]
      exact hlogins
    · exact Bool.eq_false_iff.2 fun h => Bool.false_ne_true (hnot₂.symm.trans (hkeeps h))
  · obtain ⟨hprompt₂, hcalls₂, hawaits⟩ := hawaits.names huser
    by_cases hpass : pass ∈ mistaken
    · obtain ⟨hanswer, hcalls₃, -, -, hnot₃⟩ := hawaits.refused hpass
      refine ⟨fun h => absurd hpass h.2, fun _ => ⟨?_, ?_, hnot₃⟩⟩
      · exact List.mem_cons_of_mem _ (List.mem_cons_of_mem _ (List.mem_singleton.2 hanswer.symm))
      · rw [hquiet hcalls₁, hquiet hcalls₂, hquiet hcalls₃]
        rfl
    · obtain ⟨hanswer, hcalls₃, hpeer, hin⟩ := hawaits.accepted hpass haccepts
      refine ⟨fun _ => ⟨?_, ?_, hpeer, hin⟩, fun h => absurd h (not_or.2 ⟨huser, hpass⟩)⟩
      · rw [hprompt, hprompt₂, hanswer]
      · rw [hcalls₁, hcalls₂, hcalls₃]
        rfl

theorem login_lets_in_alice :
    let v : Validator := fun user pass => user == "alice" && pass == "secret"
    let s : Session PlainLogin (Delivery.Fanout Unit) :=
      { settings := {}, auth := .over v, delivery := { listeners := [], world := () } }
    let t := s.after [.line "AUTH LOGIN", .line "YWxpY2U=", .line "c2VjcmV0"]
    v "alice" "secret" = true ∧ t.peer.user = some "alice" := by
  intro v s t
  have haccepts : v "alice" "secret" = true := by decide
  have hresponse : response "alice" = "YWxpY2U=" ∧ response "secret" = "c2VjcmV0" := by
    decide
  have hin := (login_lets_in v s .start rfl rfl "alice" "secret" haccepts).1 (by decide)
  rw [hresponse.1, hresponse.2] at hin
  exact ⟨haccepts, hin.2.2.1⟩

/-- The validator would accept this user, but is never asked. -/
theorem login_locks_out :
    let v : Validator := fun user pass => user == "iKa" && pass == "p"
    let s : Session PlainLogin (Delivery.Fanout Unit) :=
      { settings := {}, auth := .over v, delivery := { listeners := [], world := () } }
    let lines := [.line "AUTH LOGIN", .line (response "iKa"), .line (response "p")]
    v "iKa" "p" = true ∧
      (s.log lines).map Event.code? = [some .challenge, some .notSupported, some .notUnderstood] ∧
      (s.log lines).flatMap (fun e => e.outcome.calls) = [] ∧
      (s.after lines).peer.user = none := by
  decide

end SmtpReceiver
