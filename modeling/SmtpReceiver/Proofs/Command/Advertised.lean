import SmtpReceiver.Proofs.Command.Effect
import SmtpReceiver.Proofs.Command.Parts
import SmtpReceiver.Proofs.Command.Table

/-!
# What is advertised

`EHLO` lists an extension if its command is in the table and can succeed.  The commands check
the second on their own, in other words.  Both come to the same: TLS is listed if `STARTTLS` is
accepted, and a mechanism is listed if `AUTH` takes it.

A line is held back if its command needs authentication and the client could still authenticate
(`HoldsBack`).  That looks at the mechanisms only.  So the client can lift it as long as `AUTH` is
in the table, and never if it is not.
-/

namespace SmtpReceiver

open Auth (Authenticator PlainLogin)
open Delivery (Fanout Handler)
open Text

variable {α δ : Type}

/-! ## Tables of the receiver -/

namespace CommandTable

variable {name verb : String} {c : Command α δ}

/-- The table of the receiver after changes. -/
def changed [Authenticator α] [Handler δ] (changes : List (Change α δ)) : CommandTable α δ :=
  built (builtinCommands.map .add ++ changes)

theorem changed_concat [Authenticator α] [Handler δ] (changes : List (Change α δ))
    (change : Change α δ) : changed (changes ++ [change]) = (changed changes).change change := by
  rw [changed, ← List.append_assoc, built_concat]
  rfl

/-- After removals a verb has the command of the receiver, or none. -/
theorem command?_removed [Authenticator α] [Handler δ] {removed : List String}
    (h : (changed (removed.map .remove)).command? name = some c) :
    builtin.command? name = some c := by
  induction removed using List.reverseRecOn with
  | nil =>
      rwa [List.map_nil, changed, List.append_nil, ← builtin_eq_built] at h
  | append_singleton removed verb ih =>
      rw [List.map_append, List.map_singleton, changed_concat, command?_change] at h
      obtain ⟨heq, -⟩ | ⟨-, h⟩ := h
      · cases heq
      · exact ih h

theorem command?_removed_of_mem [Authenticator α] [Handler δ] {removed : List String}
    (hc : c ∈ builtinCommands)
    (h : c.name ∈ (changed (α := α) (δ := δ) (removed.map .remove)).verbs) :
    (changed (removed.map .remove)).command? c.name = some c := by
  obtain ⟨c', hc'⟩ := mem_verbs.1 h
  have heq : builtin.command? c.name = some c' := command?_removed hc'
  rw [hc', ← heq, command?_of_mem hc]

theorem command?_of_notMem {t : CommandTable α δ} (h : verb ∉ t.verbs) : t.command? verb = none :=
  Option.eq_none_iff_forall_ne_some.2 fun c hc => h (mem_verbs.2 ⟨c, hc⟩)

end CommandTable

/-! ## The extensions -/

namespace Command

section Extensions

variable [Authenticator α] {dir : Directory} {s : Session α δ} {names : List String}

theorem startTls_mem_extensions : .startTls ∈ extensions dir s ↔
    Verb.startTls ∈ dir.verbs ∧ s.peer.secure = false ∧ s.offersTls = true := by
  simp [extensions, and_comm, and_assoc]

theorem auth_mem_extensions : .auth names ∈ extensions dir s ↔
    Verb.auth ∈ dir.verbs ∧ Authenticator.mechanisms s.auth = names ∧ names ≠ [] := by
  have hlist : .auth names ∈ extensions dir s ↔
      (Verb.auth ∈ dir.verbs ∧ Authenticator.mechanisms s.auth ≠ []) ∧
        names = Authenticator.mechanisms s.auth := by
    simp [extensions]
  rw [hlist, and_assoc]
  refine and_congr_right fun _ => ⟨?_, ?_⟩
  · rintro ⟨hne, rfl⟩
    exact ⟨rfl, hne⟩
  · rintro ⟨rfl, hne⟩
    exact ⟨hne, rfl⟩

end Extensions

/-! ## The commands behind them -/

theorem startTls_ready [Authenticator α] [Handler δ] {dir : Directory} {s : Session α δ} :
    (∃ r, (startTls.run dir Verb.startTls s).answer = .ok r ∧ r.code = .ready) ↔
      s.peer.secure = false ∧ s.offersTls = true := by
  have hone : hasBlank (trim Verb.startTls) = false := by decide
  have hnot (text : String) :
      ¬∃ r, (s.say .noTls text).answer = .ok r ∧ r.code = .ready := by
    rintro ⟨r, hr, hready⟩
    obtain rfl := Except.ok.inj hr
    cases hready
  simp only [startTls, hone, Bool.false_eq_true, if_false]
  cases s.peer.secure with
  | true => exact iff_of_false (hnot _) fun h => Bool.noConfusion h.1
  | false =>
      cases s.offersTls with
      | false => exact iff_of_false (hnot _) fun h => Bool.noConfusion h.2
      | true => exact iff_of_true ⟨_, rfl, rfl⟩ ⟨rfl, rfl⟩

/-- The line that begins an exchange by a mechanism. -/
def authLine (mechanism : String) : String := Verb.auth ++ " " ++ mechanism

section Mechanism

variable {mechanism : String}

theorem arguments_authLine (hne : mechanism ≠ "") (hword : NoBlank mechanism.toList) :
    CommandLine.arguments (authLine mechanism) = [Verb.auth, mechanism] := by
  have hmechanism : words mechanism = [mechanism] := by
    have hlist : mechanism.toList ≠ [] := fun h => hne (String.toList_inj.1 h)
    have hone : wordsOf (mechanism.toList ++ []) = mechanism.toList :: wordsOf [] :=
      wordsOf_word_append hword hlist nofun
    rw [List.append_nil, wordsOf] at hone
    rw [words, hone, List.map_singleton, String.ofList_toList]
  rw [CommandLine.arguments, authLine, words_append_space, hmechanism]
  rfl

theorem verb?_authLine (mechanism : String) :
    CommandLine.verb? (authLine mechanism) = some Verb.auth := by
  rw [authLine, String.append_assoc, CommandLine.verb?_of_word (by decide) (by decide)]
  · rfl
  · rw [String.toList_append]
    rintro c ⟨⟩
    decide

/-- `AUTH` begins an exchange if the authenticator has the mechanism. -/
theorem auth_authLine [Authenticator α] {dir : Directory} {s : Session α δ}
    (hidle : s.progress.authenticating = false) (hnot : s.progress.authenticated = false)
    (hne : mechanism ≠ "") (hword : NoBlank mechanism.toList) :
    auth.run dir (authLine mechanism) s
      = if upper mechanism ∈ Authenticator.mechanisms s.auth then exchange s (authLine mechanism)
        else s.say .notSupported "Unrecognized authentication type" := by
  simp only [auth, hnot, hidle, Bool.false_eq_true, if_false, beginExchange,
    arguments_authLine hne hword, List.contains_iff_mem]

end Mechanism

/-- The reply says that there is no such command or no such mechanism. -/
def Unknown (r : Reply) : Prop :=
  r.code = .notUnderstood ∨ r = .line .notSupported "Unrecognized authentication type"

end Command

/-- What an exchange comes to is never said in these words. -/
theorem Exchanged.not_unknown [Authenticator α] {s : Session α δ}
    {t : Turn Auth.Call α Auth.Answer} {o : Outcome α δ} {r : Reply} (h : Exchanged s t o)
    (hr : o.answer = .ok r) : ¬Command.Unknown r := by
  cases h with
  | challenge text =>
      obtain rfl := Except.ok.inj hr
      rintro (h | h)
      · cases h
      · cases h
  | done user =>
      obtain rfl := Except.ok.inj hr
      rintro (h | h)
      · cases h
      · cases h
  | fault fault =>
      obtain rfl := Except.ok.inj hr
      unfold Command.Unknown
      cases fault with
      | failed => decide
      | mechanismMismatch => decide
      | initialResponseNotAllowed => decide

/-! ## What is listed works -/

section Dispatch

variable {t : CommandTable α δ} {s : Session α δ} {mechanism : String}

theorem verb?_startTls (hidle : s.progress.authenticating = false) :
    s.verb? (.line Verb.startTls) = some Verb.startTls := by
  rw [Session.verb?, if_neg (Bool.eq_false_iff.1 hidle)]
  decide

theorem verb?_authLine (hidle : s.progress.authenticating = false) (mechanism : String) :
    s.verb? (.line (Command.authLine mechanism)) = some Verb.auth := by
  rw [Session.verb?, if_neg (Bool.eq_false_iff.1 hidle), Command.verb?_authLine]

variable [Authenticator α]

/-- TLS can be started if it is listed. -/
theorem ready_startTls_iff [Handler δ] (hidle : s.progress.authenticating = false)
    (hc : Verb.startTls ∈ t.verbs → t.command? Verb.startTls = some .startTls) :
    (∃ r, (t.dispatch (.line Verb.startTls) s).answer = .ok r ∧ r.code = .ready) ↔
      .startTls ∈ Command.extensions t.directory s := by
  have hv := verb?_startTls hidle
  rw [Command.startTls_mem_extensions]
  by_cases hmem : Verb.startTls ∈ t.verbs
  · have hrun : t.dispatch (.line Verb.startTls) s
        = Command.startTls.run t.directory Verb.startTls s := by
      rw [dispatch_of_command hv (hc hmem)]
      rfl
    rw [hrun, Command.startTls_ready]
    exact (and_iff_right hmem).symm
  · have hrun : t.dispatch (.line Verb.startTls) s
        = s.say .notUnderstood "Command not implemented" := by
      rw [dispatch_of_verb hv, CommandTable.run, CommandTable.command?_of_notMem hmem]
    rw [hrun]
    refine iff_of_false ?_ fun h => hmem h.1
    rintro ⟨r, hr, hready⟩
    obtain rfl := Except.ok.inj hr
    cases hready

theorem dispatch_authLine (hidle : s.progress.authenticating = false)
    (hc : t.command? Verb.auth = some .auth) :
    t.dispatch (.line (Command.authLine mechanism)) s
      = Command.auth.run t.directory (Command.authLine mechanism) s := by
  rw [dispatch_of_command (verb?_authLine hidle mechanism) hc]
  rfl

/-- A mechanism is unknown if it is not listed. -/
theorem unknown_authLine_iff (hidle : s.progress.authenticating = false)
    (hnot : s.progress.authenticated = false) (hc : t.command? Verb.auth = some .auth)
    (hupper : ∀ name ∈ Authenticator.mechanisms s.auth, upper name = name)
    (hne : mechanism ≠ "") (hword : NoBlank mechanism.toList) :
    (∃ r, (t.dispatch (.line (Command.authLine mechanism)) s).answer = .ok r ∧ Command.Unknown r) ↔
      ∀ name ∈ Authenticator.mechanisms s.auth, sameFold name mechanism = false := by
  have hhas : upper mechanism ∈ Authenticator.mechanisms s.auth ↔
      ∃ name ∈ Authenticator.mechanisms s.auth, sameFold name mechanism = true := by
    refine ⟨fun h => ⟨_, h, ?_⟩, ?_⟩
    · rw [sameFold_comm, sameFold_upper, sameFold_refl]
    · rintro ⟨name, hname, hsame⟩
      rwa [← beq_iff_eq.1 hsame, hupper name hname]
  rw [dispatch_authLine hidle hc, Command.auth_authLine hidle hnot hne hword]
  split
  next h =>
    obtain ⟨name, hname, hsame⟩ := hhas.1 h
    refine iff_of_false ?_ fun hall => ?_
    · rintro ⟨r, hr, hunknown⟩
      exact (exchange_exchanged s _).not_unknown hr hunknown
    · rw [hall name hname] at hsame
      cases hsame
  next h =>
    refine iff_of_true ⟨_, rfl, .inr rfl⟩ fun name hname => ?_
    exact Bool.eq_false_iff.2 fun hsame => h (hhas.2 ⟨name, hname, hsame⟩)

end Dispatch

/-- Whatever commands are removed, TLS is listed if the line `STARTTLS` is answered by 220, and
`AUTH` is listed with the mechanisms if it is in the table and there are any.  Of the mechanisms
that a client may name, those that are not listed are the ones that are unknown. -/
theorem advertised_works [Authenticator α] [Handler δ] (removed : List String) (s : Session α δ)
    (hidle : s.progress.authenticating = false)
    (hupper : ∀ name ∈ Authenticator.mechanisms s.auth, upper name = name) :
    let t : CommandTable α δ := .changed (removed.map .remove)
    (.startTls ∈ Command.extensions t.directory s ↔
      ∃ r, (t.dispatch (.line "STARTTLS") s).answer = .ok r ∧ r.code = .ready) ∧
    ∀ names,
      (.auth names ∈ Command.extensions t.directory s ↔
        Lookup.contains "AUTH" t = true ∧ Authenticator.mechanisms s.auth = names ∧ names ≠ []) ∧
      (.auth names ∈ Command.extensions t.directory s → s.progress.authenticated = false →
        ∀ mechanism, mechanism ≠ "" → hasBlank mechanism = false →
          ((∃ r, (t.dispatch (.line ("AUTH " ++ mechanism)) s).answer = .ok r ∧
              Command.Unknown r) ↔
            ∀ name ∈ names, sameFold name mechanism = false)) := by
  intro t
  have hremoved (c : Command α δ) (hc : c ∈ CommandTable.builtinCommands) :
      c.name ∈ t.verbs → t.command? c.name = some c :=
    CommandTable.command?_removed_of_mem hc
  refine ⟨?_, fun names => ⟨?_, fun hlisted hnot mechanism hne hword => ?_⟩⟩
  · have hc := hremoved .startTls (by simp [CommandTable.builtinCommands])
    exact (ready_startTls_iff hidle hc).symm
  · rw [Command.auth_mem_extensions, Lookup.contains, Option.isSome_iff_exists]
    exact and_congr_left fun _ => CommandTable.mem_verbs
  · obtain ⟨hmem, rfl, -⟩ := Command.auth_mem_extensions.1 hlisted
    have hc := hremoved .auth (by simp [CommandTable.builtinCommands]) hmem
    exact unknown_authLine_iff hidle hnot hc hupper hne (noBlank_of_hasBlank hword)

theorem advertised_works_plain :
    let s : Session PlainLogin (Fanout Unit) :=
      { settings := {}
        auth := .over fun user password => user == "u" && password == "p"
        delivery := { listeners := [], world := () }
        offersTls := true }
    let t := CommandTable.changed (["HELP", "rcpt"].map .remove)
    Command.extensions t.directory s = [.eightBitMime, .startTls, .auth ["PLAIN", "LOGIN"]] ∧
      (∃ r, (t.dispatch (.line "STARTTLS") s).answer = .ok r ∧ r.code = .ready) ∧
      ¬(∃ r, (t.dispatch (.line ("AUTH " ++ "Login")) s).answer = .ok r ∧ Command.Unknown r) ∧
      ∃ r, (t.dispatch (.line ("AUTH " ++ "CRAM-MD5")) s).answer = .ok r ∧ Command.Unknown r := by
  intro s t
  obtain ⟨hstartTls, hauth⟩ := advertised_works ["HELP", "rcpt"] s rfl (by decide)
  have hlisted : Command.extensions t.directory s
      = [.eightBitMime, .startTls, .auth ["PLAIN", "LOGIN"]] := by
    decide
  have htls : .startTls ∈ Command.extensions t.directory s := by simp [hlisted]
  have hmechanisms : .auth ["PLAIN", "LOGIN"] ∈ Command.extensions t.directory s := by
    simp [hlisted]
  have hunknown := (hauth ["PLAIN", "LOGIN"]).2 hmechanisms rfl
  refine ⟨hlisted, hstartTls.1 htls, fun h => ?_, ?_⟩
  · exact absurd ((hunknown "Login" (by decide) (by decide)).1 h) (by decide)
  · exact (hunknown "CRAM-MD5" (by decide) (by decide)).2 (by decide)

/-! ## Lines that are held back -/

/-- The command of the line needs authentication, and there is a mechanism for it. -/
def CommandTable.HoldsBack [Authenticator α] (t : CommandTable α δ) (s : Session α δ)
    (line : String) : Prop :=
  ∃ verb c, s.verb? (.line line) = some verb ∧ t.command? verb = some c ∧
    c.needsAuthentication = true ∧ s.mustAuthenticate = true

theorem Session.mustAuthenticate_iff [Authenticator α] {s : Session α δ} :
    s.mustAuthenticate = true ↔
      s.progress.authenticated = false ∧ Authenticator.mechanisms s.auth ≠ [] := by
  rw [Session.mustAuthenticate, Bool.and_eq_true, Bool.not_eq_true', Bool.not_eq_true',
    List.isEmpty_eq_false_iff]

section HoldsBack

variable [Authenticator α] {t : CommandTable α δ} {s : Session α δ} {line : String}

theorem dispatch_of_holdsBack (h : t.HoldsBack s line) :
    t.dispatch (.line line) s = s.say .authenticateFirst "Authentication required" := by
  obtain ⟨verb, c, hv, hc, hneeds, hmust⟩ := h
  rw [dispatch_of_command hv hc, hneeds, hmust]
  rfl

/-- What is not held back has no command, or its command answers. -/
theorem dispatch_of_not_holdsBack (h : ¬t.HoldsBack s line) :
    (∃ text, t.dispatch (.line line) s = s.say .notUnderstood text) ∨
      ∃ verb c, s.verb? (.line line) = some verb ∧ t.command? verb = some c ∧
        t.dispatch (.line line) s = c.run t.directory line s := by
  cases hv : s.verb? (.line line) with
  | none => exact .inl ⟨_, dispatch_of_no_verb hv⟩
  | some verb =>
      cases hc : t.command? verb with
      | none =>
          refine .inl ⟨"Command not implemented", ?_⟩
          rw [dispatch_of_verb hv, CommandTable.run, hc]
      | some c =>
          have hopen : ¬(c.needsAuthentication && s.mustAuthenticate) = true := by
            intro hgate
            obtain ⟨hneeds, hmust⟩ := Bool.and_eq_true_iff.1 hgate
            exact h ⟨verb, c, hv, hc, hneeds, hmust⟩
          refine .inr ⟨verb, c, rfl, hc, ?_⟩
          rw [dispatch_of_command hv hc, if_neg hopen]

end HoldsBack

/-- A line that is held back is answered by 530, and any other by its command, if it has one.  While
lines are held back, `AUTH` is listed, with one mechanism at least, if it is in the table.  If it is
the command of the receiver, each of the mechanisms begins an exchange. -/
theorem held_back_can_authenticate [Authenticator α] [Handler δ] (changes : List (Change α δ))
    (s : Session α δ) (line : String) :
    let t : CommandTable α δ := .changed changes
    (t.HoldsBack s line →
      t.dispatch (.line line) s = s.say .authenticateFirst "Authentication required" ∧
      (Lookup.contains "AUTH" t = true ↔
        ∃ names, names ≠ [] ∧ .auth names ∈ Command.extensions t.directory s) ∧
      (t.command? "AUTH" = some .auth → s.progress.authenticating = false →
        ∀ name ∈ Authenticator.mechanisms s.auth, upper name = name → name ≠ "" →
          hasBlank name = false →
          t.dispatch (.line ("AUTH " ++ name)) s = Command.exchange s ("AUTH " ++ name))) ∧
    (¬t.HoldsBack s line →
      (∃ text, t.dispatch (.line line) s = s.say .notUnderstood text) ∨
      ∃ verb c, s.verb? (.line line) = some verb ∧ t.command? verb = some c ∧
        t.dispatch (.line line) s = c.run t.directory line s) := by
  intro t
  refine ⟨fun hheld => ⟨dispatch_of_holdsBack hheld, ?_, ?_⟩, dispatch_of_not_holdsBack⟩
  · obtain ⟨-, -, -, -, -, hmust⟩ := hheld
    obtain ⟨-, hsome⟩ := Session.mustAuthenticate_iff.1 hmust
    rw [Lookup.contains, Option.isSome_iff_exists]
    constructor
    · intro hmem
      have hmem : Verb.auth ∈ t.verbs := CommandTable.mem_verbs.2 hmem
      exact ⟨_, hsome, Command.auth_mem_extensions.2 ⟨hmem, rfl, hsome⟩⟩
    · rintro ⟨names, -, hlisted⟩
      exact CommandTable.mem_verbs.1 (Command.auth_mem_extensions.1 hlisted).1
  · intro hc hidle name hname hupper hne hword
    obtain ⟨-, -, -, -, -, hmust⟩ := hheld
    obtain ⟨hnot, -⟩ := Session.mustAuthenticate_iff.1 hmust
    have hoffers : upper name ∈ Authenticator.mechanisms s.auth := hupper.symm ▸ hname
    have hword := noBlank_of_hasBlank hword
    exact (dispatch_authLine hidle hc).trans
      ((Command.auth_authLine hidle hnot hne hword).trans (if_pos hoffers))

theorem held_back_can_authenticate_plain :
    let s : Session PlainLogin (Fanout Unit) :=
      { settings := {}
        auth := .over fun user password => user == "u" && password == "p"
        delivery := { listeners := [], world := () } }
    let t := CommandTable.changed [.remove "auth", .add .auth]
    t.HoldsBack s "MAIL FROM:<a@b>" ∧
      (∃ names, names ≠ [] ∧ .auth names ∈ Command.extensions t.directory s) ∧
      t.dispatch (.line ("AUTH " ++ "PLAIN")) s = Command.exchange s ("AUTH " ++ "PLAIN") := by
  intro s t
  have hheld : t.HoldsBack s "MAIL FROM:<a@b>" :=
    ⟨Verb.mail, .mail, by decide, rfl, rfl, by decide⟩
  obtain ⟨-, hlisted, hbegins⟩ :=
    (held_back_can_authenticate [.remove "auth", .add .auth] s "MAIL FROM:<a@b>").1 hheld
  exact ⟨hheld, hlisted.1 (by decide),
    hbegins rfl rfl "PLAIN" (by decide) (by decide) (by decide) (by decide)⟩

/-- Without `AUTH` in the table mail is held back, and no mechanism is listed. -/
theorem held_back_without_auth :
    let t : CommandTable PlainLogin (Fanout Unit) := .changed [.remove "AUTH"]
    let s := (t.dispatch (.line "EHLO c")
      { settings := {}
        auth := .over fun user password => user == "u" && password == "p"
        delivery := { listeners := [], world := () } }).session
    (t.dispatch (.line "MAIL FROM:<a@b>") s).answer
        = .ok (.line .authenticateFirst "Authentication required") ∧
      Command.extensions t.directory s = [.eightBitMime] := by
  decide

end SmtpReceiver
