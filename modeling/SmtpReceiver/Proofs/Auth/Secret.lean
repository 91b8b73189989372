import SmtpReceiver.Proofs.Auth.Complete
import SmtpReceiver.Proofs.Command.Parts

/-!
# Whom PLAIN lets in

The secret of PLAIN is an identity, a user name and a password, with a NUL between them.  The
first two NULs part it, so the parts come back as they were if neither the identity nor the user
name holds one (`plainSecret?_response`).  The password may hold as many as it likes.

A secret can stand behind the command or in a line of its own.  Neither the word `AUTH` nor a lone
asterisk is the base64 form of a secret, for there is a NUL in every secret and in none of the
texts that are `mistaken`.  So both ways come to the same (`secret_is_checked`).
-/

namespace SmtpReceiver

open Auth (Authenticator PlainLogin Reachable Stage Validator authLine? plainSecret? response splitNul?)
open Delivery (Handler)
open Framing (Frame)
open Text (Base64 Bytes LawfulBase64 decode encode isBlank)

namespace Auth

/-- The text that a client sends to PLAIN. -/
def secret (identity user pass : String) : String :=
  identity ++ "\u0000" ++ user ++ "\u0000" ++ pass

/-! ## Reading a secret -/

theorem splitNul?_append {bs : Bytes} (h : 0 ∉ bs) (rest : Bytes) :
    splitNul? (bs ++ 0 :: rest) = some (bs, rest) := by
  induction bs with
  | nil => rfl
  | cons b bs ih =>
      obtain ⟨hb, hbs⟩ := List.ne_and_not_mem_of_not_mem_cons h
      rw [List.cons_append, splitNul?, if_neg hb.symm, ih hbs]
      rfl

section Secret

variable (identity user pass : String)

/-- There is a NUL in every secret. -/
theorem nul_mem_secret : '\u0000' ∈ (secret identity user pass).toList := by
  simp [secret]

/-- No secret is taken for a command. -/
theorem secret_not_mistaken : secret identity user pass ∉ mistaken := by
  have hmistaken : ∀ text ∈ mistaken, '\u0000' ∉ text.toList := by decide
  exact fun h => hmistaken _ h (nul_mem_secret identity user pass)

variable [Base64] [LawfulBase64]

/-- A response is one word. -/
theorem words_secret :
    Text.words (response (secret identity user pass)) = [response (secret identity user pass)] := by
  rw [words_response, if_neg]
  intro hempty
  have hnul := nul_mem_secret identity user pass
  rw [hempty] at hnul
  cases hnul

theorem words_authPlain_secret :
    Text.words ("AUTH PLAIN" ++ " " ++ response (secret identity user pass))
      = ["AUTH", "PLAIN", response (secret identity user pass)] := by
  have hwords : Text.words "AUTH PLAIN" = ["AUTH", "PLAIN"] := by decide
  rw [Text.words_append_space, hwords, words_secret]
  rfl

variable {identity user}

/-- A secret is read back from what the client sends. -/
theorem plainSecret?_response (hidentity : '\u0000' ∉ identity.toList)
    (huser : '\u0000' ∉ user.toList) :
    plainSecret? (response (secret identity user pass)) = some (user, pass) := by
  have hbytes : encode (secret identity user pass)
      = encode identity ++ 0 :: (encode user ++ 0 :: encode pass) := by
    have hnul : encode "\u0000" = [0] := by decide
    simp only [secret, Text.encode_append, hnul, List.append_assoc, List.cons_append,
      List.nil_append]
  rw [plainSecret?, response, LawfulBase64.decode?_encode, hbytes]
  simp only [Option.bind_eq_bind, Option.bind_some,
    splitNul?_append (Text.zero_not_mem_encode hidentity),
    splitNul?_append (Text.zero_not_mem_encode huser), Text.decode_encode]

end Secret

/-- What the client is told of a login. -/
def verdict (accepted : Bool) : Reply :=
  if accepted then .line .authenticated "Authentication successful"
  else .line .authenticationFailed "Authentication failure"

/-! ## Stages -/

variable [Base64] (v : Validator) (stage : Stage)

theorem answer_authPlain : stage.answer v "AUTH PLAIN" = ⟨.ok (.challenge ""), .secret, []⟩ := by
  have hline : authLine? "AUTH PLAIN" = some ("PLAIN", []) := by decide
  have hname : Mechanism.ofName? "PLAIN" = some .plain := by decide
  simp only [Stage.answer, hline, Stage.start, hname]

variable [LawfulBase64] {identity user : String} (pass : String)

/-- A secret that comes with the command is checked. -/
theorem answer_authPlain_secret (hidentity : '\u0000' ∉ identity.toList)
    (huser : '\u0000' ∉ user.toList) :
    stage.answer v ("AUTH PLAIN" ++ " " ++ response (secret identity user pass))
      = Stage.check v (some (user, pass)) := by
  have hline : authLine? ("AUTH PLAIN" ++ " " ++ response (secret identity user pass))
      = some ("PLAIN", [response (secret identity user pass)]) := by
    have hupper : Text.upper "PLAIN" = "PLAIN" := by decide
    rw [authLine?, words_authPlain_secret]
    simp only [Text.sameFold_refl, if_true, List.headD_cons, List.tail_cons, hupper]
  have hname : Mechanism.ofName? "PLAIN" = some .plain := by decide
  simp only [Stage.answer, hline, Stage.start, hname, plainSecret?_response pass hidentity huser]

/-- A secret that is due is checked. -/
theorem answer_secret (hidentity : '\u0000' ∉ identity.toList) (huser : '\u0000' ∉ user.toList) :
    Stage.answer v .secret (response (secret identity user pass))
      = Stage.check v (some (user, pass)) := by
  have htrim : Text.trim (response (secret identity user pass))
      = response (secret identity user pass) := Text.trim_base64 _
  simp only [Stage.answer, authLine?_response, if_neg (secret_not_mistaken identity user pass),
    Stage.respond, htrim, plainSecret?_response pass hidentity huser]

end Auth

open Auth

/-! ## Sessions -/

variable {δ : Type}

/-- The session after a login.  PLAIN and LOGIN are as they were at the beginning. -/
def Session.afterLogin (s : Session PlainLogin δ) (v : Validator) (user : String)
    (accepted : Bool) : Session PlainLogin δ :=
  if accepted then
    { s with
      progress := (s.progress.mark (.authenticating false)).mark (.authenticated true)
      auth := .over v
      peer := { s.peer with user := some user } }
  else
    { s with
      progress := (s.progress.mark (.authenticating false)).mark (.authenticated false)
      auth := .over v }

/-- The validator is asked about a user and a password, and the exchange is over. -/
def Session.tryLogin (s : Session PlainLogin δ) (v : Validator) (user pass : String) :
    Outcome PlainLogin δ :=
  { session := s.afterLogin v user (v user pass)
    answer := .ok (verdict (v user pass))
    calls := [.auth (.login user pass (v user pass))] }

section Session

variable [Base64] {s : Session PlainLogin δ} {v : Validator} {stage : Stage} {line user pass : String}

/-- A login that is tried ends the exchange. -/
theorem exchange_check (hauth : s.auth = PlainLogin.due v stage)
    (h : stage.answer v line = Stage.check v (some (user, pass))) :
    Command.exchange s line = s.tryLogin v user pass := by
  simp only [Command.exchange, hauth, PlainLogin.answer_due, h, Stage.check, Session.tryLogin,
    Session.afterLogin, verdict]
  cases v user pass with
  | true => rfl
  | false => rfl

variable [Handler δ]

theorem dispatch_authPlain (hauth : s.auth = PlainLogin.due v stage)
    (hidle : s.progress.authenticating = false) (hnot : s.progress.authenticated = false) :
    CommandTable.builtin.dispatch (.line "AUTH PLAIN") s
      = { session :=
            { s with
              progress := s.progress.mark (.authenticating true)
              auth := PlainLogin.due v .secret }
          answer := .ok (.line .challenge "") } := by
  have hwords : CommandLine.arguments "AUTH PLAIN" = ["AUTH", "PLAIN"] := by decide
  rw [dispatch_begins hauth hidle hnot (by decide) hwords (by decide),
    exchange_challenge hauth (answer_authPlain v stage)]

variable [LawfulBase64]

theorem dispatch_authPlain_secret {identity : String} (hauth : s.auth = PlainLogin.due v stage)
    (hidle : s.progress.authenticating = false) (hnot : s.progress.authenticated = false)
    (hidentity : '\u0000' ∉ identity.toList) (huser : '\u0000' ∉ user.toList) :
    CommandTable.builtin.dispatch
        (.line ("AUTH PLAIN" ++ " " ++ response (secret identity user pass))) s
      = s.tryLogin v user pass := by
  have hwords : CommandLine.arguments ("AUTH PLAIN" ++ " " ++ response (secret identity user pass))
      = ["AUTH", "PLAIN", response (secret identity user pass)] :=
    words_authPlain_secret identity user pass
  have hverb : CommandLine.verb? ("AUTH PLAIN" ++ " " ++ response (secret identity user pass))
      = some Verb.auth := by
    have hline : "AUTH PLAIN" = "AUTH" ++ (" " ++ "PLAIN") := by decide
    have hupper : Text.upper "AUTH" = Verb.auth := by decide
    rw [hline, String.append_assoc, String.append_assoc, String.append_assoc, ← hupper]
    exact CommandLine.verb?_of_word (by decide) (by decide)
      (Text.head?_blank_append (by decide) (by decide) _)
  rw [dispatch_begins hauth hidle hnot hverb hwords (by decide)]
  exact exchange_check hauth (answer_authPlain_secret v stage pass hidentity huser)

theorem Awaits.checked {identity : String} (h : Awaits v .secret s)
    (hidentity : '\u0000' ∉ identity.toList) (huser : '\u0000' ∉ user.toList) :
    CommandTable.builtin.dispatch (.line (response (secret identity user pass))) s
      = s.tryLogin v user pass := by
  rw [dispatch_response h.exchange h.fresh]
  exact exchange_check h.auth (answer_secret v pass hidentity huser)

end Session

/-- A secret comes to the same whether it stands behind the command or in a line of its own.  The
validator is asked once, about the user and the password in it.  If it accepts, the client is that
user, and otherwise PLAIN and LOGIN are as they were at the beginning. -/
theorem secret_is_checked [Base64] [LawfulBase64] [Handler δ] (v : Validator)
    (s : Session PlainLogin δ) (hauth : Reachable (PlainLogin.over v) s.auth)
    (hidle : s.progress.authenticating = false) (hnot : s.progress.authenticated = false) {identity user : String} (pass : String)
    (hidentity : '\u0000' ∉ identity.toList) (huser : '\u0000' ∉ user.toList) :
    let sent := response (secret identity user pass)
    let atOnce := [.line ("AUTH PLAIN" ++ " " ++ sent)]
    let asked := [.line "AUTH PLAIN", .line sent]
    (s.log atOnce).map (fun e => e.outcome.answer) = [.ok (verdict (v user pass))] ∧
    (s.log asked).map (fun e => e.outcome.answer)
      = [.ok (.line .challenge ""), .ok (verdict (v user pass))] ∧
    ∀ lines ∈ [atOnce, asked],
      (s.log lines).flatMap (fun e => e.outcome.calls)
          = [.auth (.login user pass (v user pass))] ∧
        s.after lines = s.afterLogin v user (v user pass) := by
  intro sent atOnce asked
  obtain ⟨stage, hstage⟩ := PlainLogin.reachable_over hauth
  let t : Session PlainLogin δ :=
    { s with progress := s.progress.mark (.authenticating true), auth := .due v .secret }
  have hatOnce : CommandTable.builtin.dispatch (.line ("AUTH PLAIN" ++ " " ++ sent)) s
      = s.tryLogin v user pass :=
    dispatch_authPlain_secret hstage hidle hnot hidentity huser
  have hcommand := dispatch_authPlain hstage hidle hnot
  have hawaits : Awaits v .secret t := ⟨rfl, rfl, hnot⟩
  have hsame : t.tryLogin v user pass = s.tryLogin v user pass := by
    simp only [Session.tryLogin, Session.afterLogin]
    cases v user pass with
    | true => rfl
    | false => rfl
  have hsecret : CommandTable.builtin.dispatch (.line sent) t = s.tryLogin v user pass :=
    (hawaits.checked hidentity huser).trans hsame
  have hlogAtOnce : s.log atOnce
      = [⟨s, .line ("AUTH PLAIN" ++ " " ++ sent), s.tryLogin v user pass⟩] := by
    simp only [atOnce, Session.log, hatOnce]
  have hlogAsked : s.log asked
      = [⟨s, .line "AUTH PLAIN", t, .ok (.line .challenge ""), []⟩,
          ⟨t, .line sent, s.tryLogin v user pass⟩] := by
    simp only [asked, Session.log, hcommand]
    rw [show CommandTable.builtin.dispatch (.line sent) t = _ from hsecret]
  rw [hlogAtOnce, hlogAsked]
  refine ⟨rfl, rfl, List.forall_mem_cons.2 ⟨?_, List.forall_mem_singleton.2 ?_⟩⟩
  · rw [hlogAtOnce]
    exact ⟨rfl, congrArg Outcome.session hatOnce⟩
  · rw [hlogAsked]
    refine ⟨rfl, ?_⟩
    simp only [asked, Session.after, List.foldl_cons, List.foldl_nil, hcommand]
    exact congrArg Outcome.session hsecret

theorem secret_is_checked_alice :
    let v : Validator := fun user pass => user == "alice" && pass == "secret"
    let s : Session PlainLogin (Delivery.Fanout Unit) :=
      { settings := {}, auth := .over v, delivery := { listeners := [], world := () } }
    let atOnce := [.line "AUTH PLAIN AGFsaWNlAHNlY3JldA=="]
    let asked := [.line "AUTH PLAIN", .line "AGFsaWNlAHNlY3JldA=="]
    (s.log atOnce).flatMap (fun e => e.outcome.calls) = [.auth (.login "alice" "secret" true)] ∧
      (s.after asked).peer.user = some "alice" := by
  intro v s atOnce asked
  have haccepts : v "alice" "secret" = true := by decide
  have hsent : response (secret "" "alice" "secret") = "AGFsaWNlAHNlY3JldA==" := by decide
  have hline : "AUTH PLAIN" ++ " " ++ "AGFsaWNlAHNlY3JldA==" = "AUTH PLAIN AGFsaWNlAHNlY3JldA==" := by
    decide
  obtain ⟨-, -, hall⟩ :=
    secret_is_checked v s .start rfl rfl "secret" (by decide : '\u0000' ∉ "".toList)
      (by decide : '\u0000' ∉ "alice".toList)
  rw [hsent, hline, haccepts] at hall
  obtain ⟨hatOnce, hasked⟩ := List.forall_mem_cons.1 hall
  refine ⟨hatOnce.1, ?_⟩
  rw [(List.forall_mem_singleton.1 hasked).2]
  rfl

end SmtpReceiver
