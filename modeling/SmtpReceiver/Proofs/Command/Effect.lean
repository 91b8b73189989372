import SmtpReceiver.Dispatch

/-!
# What a frame can do

The commands of the receiver leave a session as it is, or change it in one of
few ways.  `Effect` has a case for each of these ways, with everything that was
checked before.  `dispatch_effect` says that there is no other.

So a property of all frames needs no look at the table or at a command.  It is a
case analysis over effects.
-/

namespace SmtpReceiver

open Auth (Authenticator)
open Delivery (Handler)
open Framing (Frame)
open Text (Lookup)

variable {α δ : Type}

/-! ## The table -/

namespace CommandTable

variable [Authenticator α] [Handler δ]

/-- The verbs of the commands of the receiver. -/
def builtinVerbs : List String :=
  [Verb.helo, Verb.ehlo, Verb.mail, Verb.rcpt, Verb.data, Verb.dataEnd, Verb.rset, Verb.noop,
    Verb.quit, Verb.help, Verb.auth, Verb.startTls]

theorem names_builtinCommands :
    (builtinCommands (α := α) (δ := δ)).map Command.name = builtinVerbs := rfl

theorem upper_name {c : Command α δ} (hc : c ∈ builtinCommands) : Text.upper c.name = c.name := by
  have hverbs : ∀ verb ∈ builtinVerbs, Text.upper verb = verb := by decide
  refine hverbs c.name ?_
  rw [← names_builtinCommands (α := α) (δ := δ)]
  exact List.mem_map_of_mem hc

/-- Each command of the receiver is found under its verb. -/
theorem command?_of_mem {c : Command α δ} (hc : c ∈ builtinCommands) :
    builtin.command? c.name = some c := by
  have hverbs : (builtinVerbs.map Text.upper).Nodup := by decide
  rw [← names_builtinCommands (α := α) (δ := δ), List.map_map] at hverbs
  rw [← upper_name hc]
  exact Lookup.get?_foldl_insert hverbs hc []

/-- What is found under a verb is the command of that verb. -/
theorem mem_of_command? {verb : String} {c : Command α δ} (h : builtin.command? verb = some c) :
    c ∈ builtinCommands ∧ c.name = verb := by
  obtain ⟨hname, hmem⟩ :=
    (Lookup.mem_foldl_insert (Lookup.mem_of_get? h)).resolve_right List.not_mem_nil
  exact ⟨hmem, (upper_name hmem).symm.trans hname.symm⟩

end CommandTable

/-! ## Effects -/

/-- The verb under which a frame is answered. -/
def Session.verb? (s : Session α δ) : Frame → Option String
  | .line text =>
    if s.progress.authenticating then some Verb.auth else CommandLine.verb? text
  | .message _ => some Verb.dataEnd

/-- The outcome of the end of a message. -/
def Session.deliver [Handler δ] (s : Session α δ) (m : Message) : Outcome α δ :=
  let t := Handler.message s.delivery s.peer m
  { session := Session.reset { s with delivery := t.next }
    answer := Command.deliveryAnswer t.result
    calls := .message s.peer m :: t.calls.map .delivery }

/-- A reply to a line that may come without an effect. -/
structure Idle (s : Session α δ) (frame : Frame) (r : Reply) : Prop where
  line : ∃ text, frame = .line text
  quit : s.verb? frame ≠ some Verb.quit
  rset : s.verb? frame ≠ some Verb.rset
  startTls : s.verb? frame = some Verb.startTls → r.code ≠ .ready
  auth : s.verb? frame = some Verb.auth → r.code ≠ .authenticated
  exchange : s.progress.authenticating = true → s.progress.authenticated = true

variable [Authenticator α] [Handler δ]

/-- The ways in which a frame may change a session. -/
inductive Effect (s : Session α δ) (frame : Frame) : Outcome α δ → Prop where
  | stay (r : Reply) : Idle s frame r → Effect s frame (s.answer r)
  | greet (r : Reply) : s.verb? frame = some Verb.helo ∨ s.verb? frame = some Verb.ehlo →
    r.code = .ok →
    Effect s frame (Session.answer { s with progress := s.progress.mark (.greeted true) } r)
  | quit : s.verb? frame = some Verb.quit →
    Effect s frame (Session.say { s with progress := s.progress.mark .quit } .closing "Bye")
  | reset : s.verb? frame = some Verb.rset → Effect s frame (s.reset.say .ok "Ok")
  | startTls : s.verb? frame = some Verb.startTls → s.peer.secure = false → s.offersTls = true →
    Effect s frame
      { session := { s.forget.next with wantsTls := true }
        answer := .ok (.line .ready "Ready to start TLS")
        calls := s.forget.calls }
  | sender (address : Address) : s.verb? frame = some Verb.mail → s.mustAuthenticate = false →
    s.progress.greeted = true → s.progress.hasSender = false →
    Effect s frame (Command.acceptSender s address)
  | recipient (address : Address) : s.verb? frame = some Verb.rcpt → s.mustAuthenticate = false →
    s.progress.hasSender = true → Command.isFull s = false →
    Effect s frame (Command.acceptRecipient s address)
  | data : s.verb? frame = some Verb.data → s.mustAuthenticate = false →
    s.progress.hasSender = true → s.progress.recipients ≠ 0 →
    Effect s frame
      (Session.say { s with progress := s.progress.mark (.message true) } .startMessage
        "End data with <CR><LF>.<CR><LF>")
  | cancel : s.verb? frame = some Verb.auth → s.progress.authenticated = false →
    s.progress.authenticating = true →
    Effect s frame (Command.cancelExchange s)
  | exchange (text : String) : frame = .line text → s.verb? frame = some Verb.auth →
    s.progress.authenticated = false →
    (s.progress.authenticating = false →
      ∃ verb mechanism rest, CommandLine.arguments text = verb :: mechanism :: rest ∧
        Text.upper mechanism ∈ Authenticator.mechanisms s.auth) →
    Effect s frame (Command.exchange s text)
  | deliver (m : Message) :
    frame = .message m ∨ s.verb? frame = some Verb.dataEnd ∧ s.pending = some m →
    Effect s frame (s.deliver m)

namespace Effect

variable {s : Session α δ} {text : String} {dir : Directory}

omit [Authenticator α] [Handler δ] in
theorem idle_of_verb {verb : String} (hv : s.verb? (.line text) = some verb)
    (hverb : verb ∉ [Verb.quit, Verb.rset, Verb.startTls, Verb.auth]) (r : Reply) :
    Idle s (.line text) r where
  line := ⟨text, rfl⟩
  quit h := hverb (by simp [Option.some.inj (hv.symm.trans h)])
  rset h := hverb (by simp [Option.some.inj (hv.symm.trans h)])
  startTls h := absurd (by simp [Option.some.inj (hv.symm.trans h)]) hverb
  auth h := absurd (by simp [Option.some.inj (hv.symm.trans h)]) hverb
  exchange h := by
    have hauth : s.verb? (.line text) = some Verb.auth := if_pos h
    exact absurd (by simp [Option.some.inj (hv.symm.trans hauth)]) hverb

/-! ## Each command -/

theorem of_helo (hv : s.verb? (.line text) = some Verb.helo) :
    Effect s (.line text) (Command.helo.run dir text s) := by
  simp only [Command.helo]
  split
  · exact .stay _ (idle_of_verb hv (by decide) _)
  · exact .greet _ (.inl hv) rfl

theorem of_ehlo (hv : s.verb? (.line text) = some Verb.ehlo) :
    Effect s (.line text) (Command.ehlo.run dir text s) := by
  have hidle := idle_of_verb hv (by decide)
  simp only [Command.ehlo]
  split
  · split
    · exact .stay _ (hidle _)
    · exact .greet _ (.inr hv) rfl
  · exact .stay _ (hidle _)

theorem of_helpMe (hv : s.verb? (.line text) = some Verb.help) :
    Effect s (.line text) (Command.helpMe.run dir text s) := by
  have hidle := idle_of_verb hv (by decide)
  simp only [Command.helpMe]
  split
  · exact .stay _ (hidle _)
  · split
    · exact .stay _ (hidle _)
    · exact .stay _ (hidle _)

theorem of_startTls (hv : s.verb? (.line text) = some Verb.startTls) :
    Effect s (.line text) (Command.startTls.run dir text s) := by
  have hidle (r : Reply) (hcode : r.code ≠ .ready) : Idle s (.line text) r := by
    refine ⟨⟨text, rfl⟩, by rw [hv]; decide, by rw [hv]; decide, fun _ => hcode, ?_, ?_⟩
    · rw [hv]
      exact fun h => absurd h (by decide)
    · intro h
      have hauth : s.verb? (.line text) = some Verb.auth := if_pos h
      exact absurd (hv.symm.trans hauth) (by decide)
  simp only [Command.startTls]
  split
  next => exact .stay _ (hidle _ (by decide))
  next =>
    split
    next => exact .stay _ (hidle _ (by decide))
    next hsecure =>
      split
      next => exact .stay _ (hidle _ (by decide))
      next hoffers => exact .startTls hv (by simpa using hsecure) (by simpa using hoffers)

theorem of_mail (hv : s.verb? (.line text) = some Verb.mail) (hgate : s.mustAuthenticate = false) :
    Effect s (.line text) (Command.mail.run dir text s) := by
  have hidle := idle_of_verb hv (by decide)
  simp only [Command.mail]
  split
  next => exact .stay _ (hidle _)
  next hgreeted =>
    split
    next => exact .stay _ (hidle _)
    next hsender =>
      split
      next => exact .stay _ (hidle _)
      next =>
        split
        next => exact .stay _ (hidle _)
        next =>
          split
          next => exact .stay _ (hidle _)
          next address _ =>
            exact .sender address hv hgate (by simpa using hgreeted) (by simpa using hsender)

theorem of_rcpt (hv : s.verb? (.line text) = some Verb.rcpt) (hgate : s.mustAuthenticate = false) :
    Effect s (.line text) (Command.rcpt.run dir text s) := by
  have hidle := idle_of_verb hv (by decide)
  simp only [Command.rcpt]
  split
  next => exact .stay _ (hidle _)
  next hsender =>
    split
    next => exact .stay _ (hidle _)
    next hfull =>
      split
      next => exact .stay _ (hidle _)
      next =>
        split
        next => exact .stay _ (hidle _)
        next address _ =>
          exact .recipient address hv hgate (by simpa using hsender) (by simpa using hfull)

theorem of_data (hv : s.verb? (.line text) = some Verb.data) (hgate : s.mustAuthenticate = false) :
    Effect s (.line text) (Command.data.run dir text s) := by
  have hidle := idle_of_verb hv (by decide)
  simp only [Command.data]
  split
  next => exact .stay _ (hidle _)
  next hsender =>
    split
    next => exact .stay _ (hidle _)
    next hrecipients => exact .data hv hgate (by simpa using hsender) hrecipients

theorem of_dataEnd (hv : s.verb? (.line text) = some Verb.dataEnd) :
    Effect s (.line text) (Command.dataEnd.run dir text s) := by
  simp only [Command.dataEnd]
  split
  next => exact .stay _ (idle_of_verb hv (by decide) _)
  next m hpending => exact .deliver m (.inr ⟨hv, hpending⟩)

theorem of_auth (hv : s.verb? (.line text) = some Verb.auth) :
    Effect s (.line text) (Command.auth.run dir text s) := by
  have hidle (r : Reply) (hcode : r.code ≠ .authenticated)
      (hexchange : s.progress.authenticating = true → s.progress.authenticated = true) :
      Idle s (.line text) r := by
    refine ⟨⟨text, rfl⟩, by rw [hv]; decide, by rw [hv]; decide, ?_, fun _ => hcode, hexchange⟩
    rw [hv]
    exact fun h => absurd h (by decide)
  simp only [Command.auth]
  split
  next hauthenticated => exact .stay _ (hidle _ (by decide) fun _ => hauthenticated)
  next hauthenticated =>
    have hauthenticated : s.progress.authenticated = false := by simpa using hauthenticated
    split
    next hauthenticating =>
      split
      next => exact .cancel hv hauthenticated hauthenticating
      next => exact .exchange text rfl hv hauthenticated fun h => by simp [hauthenticating] at h
    next hauthenticating =>
      have hnone : s.progress.authenticating = true → s.progress.authenticated = true :=
        fun h => absurd h hauthenticating
      unfold Command.beginExchange
      split
      next verb mechanism rest harguments =>
        split
        next hmechanism =>
          refine .exchange text rfl hv hauthenticated fun _ => ⟨verb, mechanism, rest, harguments, ?_⟩
          simpa using hmechanism
        next => exact .stay _ (hidle _ (by decide) hnone)
      next => exact .stay _ (hidle _ (by decide) hnone)

/-! ## All commands -/

/-- A command that needs authentication runs only after it. -/
theorem of_gate {c : Command α δ} (hneeds : c.needsAuthentication = true)
    (hidle : ∀ r, Idle s (.line text) r)
    (hrun : s.mustAuthenticate = false → Effect s (.line text) (c.run dir text s)) :
    Effect s (.line text)
      (if c.needsAuthentication && s.mustAuthenticate then
        s.say .authenticateFirst "Authentication required"
      else c.run dir text s) := by
  rw [hneeds, Bool.true_and]
  split
  next => exact .stay _ (hidle _)
  next hgate => exact hrun (by simpa using hgate)

theorem of_command : ∀ c ∈ CommandTable.builtinCommands (α := α) (δ := δ),
    s.verb? (.line text) = some c.name →
      Effect s (.line text)
        (if c.needsAuthentication && s.mustAuthenticate then
          s.say .authenticateFirst "Authentication required"
        else c.run dir text s) := by
  simp only [CommandTable.builtinCommands, List.forall_mem_cons]
  refine ⟨of_helo, of_ehlo, ?mail, ?rcpt, ?data, of_dataEnd, .reset, ?noop, .quit, of_helpMe,
    of_auth, of_startTls, List.forall_mem_nil _⟩
  case mail =>
    intro hv
    have hv : s.verb? (.line text) = some Verb.mail := hv
    exact of_gate rfl (idle_of_verb hv (by decide)) (of_mail hv)
  case rcpt =>
    intro hv
    have hv : s.verb? (.line text) = some Verb.rcpt := hv
    exact of_gate rfl (idle_of_verb hv (by decide)) (of_rcpt hv)
  case data =>
    intro hv
    have hv : s.verb? (.line text) = some Verb.data := hv
    exact of_gate rfl (idle_of_verb hv (by decide)) (of_data hv)
  case noop =>
    intro hv
    have hv : s.verb? (.line text) = some Verb.noop := hv
    exact .stay _ (idle_of_verb hv (by decide) _)

theorem of_run {verb : String} (hv : s.verb? (.line text) = some verb) :
    Effect s (.line text) (CommandTable.builtin.run verb text s) := by
  rw [CommandTable.run]
  cases hc : (CommandTable.builtin (α := α) (δ := δ)).command? verb with
  | some c =>
      obtain ⟨hmem, rfl⟩ := CommandTable.mem_of_command? hc
      exact of_command c hmem hv
  | none =>
      refine .stay _ (idle_of_verb hv (fun hverb => ?_) _)
      -- Each of these verbs has its command, but this one has none.
      have hverbs : ∀ verb ∈ [Verb.quit, Verb.rset, Verb.startTls, Verb.auth],
          verb ∈ CommandTable.builtinVerbs := by
        decide
      have hname := hverbs verb hverb
      rw [← CommandTable.names_builtinCommands (α := α) (δ := δ)] at hname
      obtain ⟨c, hmem, rfl⟩ := List.mem_map.1 hname
      rw [CommandTable.command?_of_mem hmem] at hc
      cases hc

end Effect

theorem CommandTable.command?_dataEnd :
    (builtin (α := α) (δ := δ)).command? Verb.dataEnd = some .dataEnd :=
  command?_of_mem (c := .dataEnd) (by simp [builtinCommands])

/-- A message is handed over, whatever the session is doing. -/
theorem dispatch_message (s : Session α δ) (m : Message) :
    CommandTable.builtin.dispatch (.message m) s = s.deliver m := by
  simp only [CommandTable.dispatch, CommandTable.run, CommandTable.command?_dataEnd,
    Command.dataEnd]
  rfl

section Lines

omit [Handler δ]

variable {t : CommandTable α δ} {s : Session α δ} {text verb : String}

/-- A line is answered by the command of its verb. -/
theorem dispatch_of_verb (hv : s.verb? (.line text) = some verb) :
    t.dispatch (.line text) s = t.run verb text s := by
  simp only [Session.verb?] at hv
  simp only [CommandTable.dispatch, CommandTable.dispatchLine]
  split at hv
  next hauthenticating =>
    rw [if_pos hauthenticating]
    exact congrArg (t.run · text s) (Option.some.inj hv)
  next hauthenticating => rw [if_neg hauthenticating, hv]

theorem dispatch_of_no_verb (hv : s.verb? (.line text) = none) :
    t.dispatch (.line text) s = s.say .notUnderstood CommandLine.noVerb := by
  simp only [Session.verb?] at hv
  simp only [CommandTable.dispatch, CommandTable.dispatchLine]
  split at hv
  next => cases hv
  next hauthenticating => rw [if_neg hauthenticating, hv]

/-- The command runs, unless the client has to authenticate first. -/
theorem dispatch_of_command {c : Command α δ} (hv : s.verb? (.line text) = some verb)
    (hc : t.command? verb = some c) :
    t.dispatch (.line text) s
      = if c.needsAuthentication && s.mustAuthenticate then
          s.say .authenticateFirst "Authentication required"
        else c.run t.directory text s := by
  rw [dispatch_of_verb hv, CommandTable.run, hc]

end Lines

/-- A client that ends a message itself has sent none. -/
theorem dispatch_dataEnd {s : Session α δ} {text : String}
    (hv : s.verb? (.line text) = some Verb.dataEnd) (hpending : s.pending = none) :
    CommandTable.builtin.dispatch (.line text) s
      = s.say .notUnderstood "Command not implemented" := by
  rw [dispatch_of_command hv CommandTable.command?_dataEnd]
  simp only [Command.dataEnd, hpending]
  rfl

/-- Whatever a frame does is one of the effects. -/
theorem dispatch_effect (s : Session α δ) (frame : Frame) :
    Effect s frame (CommandTable.builtin.dispatch frame s) := by
  cases frame with
  | message m =>
      rw [dispatch_message]
      exact .deliver m (.inl rfl)
  | line text =>
      cases hv : s.verb? (.line text) with
      | some verb =>
          rw [dispatch_of_verb hv]
          exact Effect.of_run hv
      | none =>
          rw [dispatch_of_no_verb hv]
          refine .stay _ ⟨⟨text, rfl⟩, ?_, ?_, ?_, ?_, fun hexchange => ?_⟩
          case refine_5 =>
            rw [Session.verb?, if_pos hexchange] at hv
            cases hv
          all_goals simp [hv]

/-! ## What collaborators answer -/

/-- The delivery handler accepts what it is asked, which leaves a mark, or refuses it. -/
inductive Asked {α δ : Type} (s : Session α δ) (mark : Mark) (asked : Call)
    (t : Turn Delivery.Call δ (Except Delivery.Rejection Unit)) : Outcome α δ → Prop where
  | accepted : t.result = .ok () →
    Asked s mark asked t
      { session := { s with progress := s.progress.mark mark, delivery := t.next }
        answer := .ok (.line .ok "Ok")
        calls := asked :: t.calls.map .delivery }
  | refused (rejection : Delivery.Rejection) : t.result = .error rejection →
    Asked s mark asked t
      { session := { s with delivery := t.next }
        answer := .ok rejection.reply
        calls := asked :: t.calls.map .delivery }

/-- The authenticator asks for more, knows the client, or ends the exchange by a fault. -/
inductive Exchanged {α δ : Type} [Authenticator α] (s : Session α δ)
    (t : Turn Auth.Call α Auth.Answer) : Outcome α δ → Prop where
  | challenge (text : String) : t.result = .ok (.challenge text) →
    Exchanged s t
      { session := { s with progress := s.progress.mark (.authenticating true), auth := t.next }
        answer := .ok (.line .challenge text)
        calls := t.calls.map .auth }
  | done (user : String) : t.result = .ok (.done user) →
    Exchanged s t
      { session :=
          { s with
            progress := (s.progress.mark (.authenticating false)).mark (.authenticated true)
            auth := t.next
            peer := { s.peer with user := some user } }
        answer := .ok (.line .authenticated "Authentication successful")
        calls := t.calls.map .auth }
  | fault (fault : Auth.Fault) : t.result = .error fault →
    Exchanged s t
      { session :=
          { s with
            progress := (s.progress.mark (.authenticating false)).mark (.authenticated false)
            auth := (Authenticator.reset t.next).next }
        answer := .ok fault.reply
        calls := (t.calls ++ (Authenticator.reset t.next).calls).map .auth }

section Answers

variable (s : Session α δ)

omit [Authenticator α] in
theorem acceptSender_asked (address : Address) :
    Asked s (.sender true) (.sender s.peer address.text)
      (Handler.sender s.delivery s.peer address.text) (Command.acceptSender s address) := by
  simp only [Command.acceptSender]
  split
  next h => exact .accepted h
  next rejection h => exact .refused rejection h

omit [Authenticator α] in
theorem acceptRecipient_asked (address : Address) :
    Asked s .recipient (.recipient s.peer address.text)
      (Handler.recipient s.delivery s.peer address.text) (Command.acceptRecipient s address) := by
  simp only [Command.acceptRecipient]
  split
  next h => exact .accepted h
  next rejection h => exact .refused rejection h

omit [Handler δ] in
theorem exchange_exchanged (text : String) :
    Exchanged s (Authenticator.answer s.auth text) (Command.exchange s text) := by
  simp only [Command.exchange]
  split
  next challenge h => exact .challenge challenge h
  next user h => exact .done user h
  next fault h => exact .fault fault h

end Answers

/-! ## What every frame keeps -/

/-- What a command that asks a collaborator leaves as it is.  It replies, whatever it is told. -/
structure Keeps (s : Session α δ) (o : Outcome α δ) : Prop where
  settings : o.session.settings = s.settings
  offersTls : o.session.offersTls = s.offersTls
  wantsTls : o.session.wantsTls = s.wantsTls
  active : o.session.progress.active = s.progress.active
  answer : ∃ r, o.answer = .ok r

namespace Asked

omit [Authenticator α] [Handler δ]

variable {s : Session α δ} {mark : Mark} {asked : Call}
  {t : Turn Delivery.Call δ (Except Delivery.Rejection Unit)} {o : Outcome α δ}

/-- Nothing but the progress and the handler changes. -/
theorem session (h : Asked s mark asked t o) :
    o.session = { s with progress := o.session.progress, delivery := t.next } := by
  cases h with
  | accepted => rfl
  | refused => rfl

theorem calls (h : Asked s mark asked t o) : o.calls = asked :: t.calls.map .delivery := by
  cases h with
  | accepted => rfl
  | refused => rfl

theorem keeps (h : Asked s mark asked t o)
    (hmark : (s.progress.mark mark).active = s.progress.active) : Keeps s o := by
  cases h with
  | accepted => exact ⟨rfl, rfl, rfl, hmark, _, rfl⟩
  | refused => exact ⟨rfl, rfl, rfl, rfl, _, rfl⟩

end Asked

namespace Exchanged

omit [Handler δ]

variable {s : Session α δ} {t : Turn Auth.Call α Auth.Answer} {o : Outcome α δ}

/-- Nothing but the progress, the authenticator and the user changes. -/
theorem session (h : Exchanged s t o) :
    o.session
      = { s with
          progress := o.session.progress
          auth := o.session.auth
          peer := { s.peer with user := o.session.peer.user } } := by
  cases h with
  | challenge => rfl
  | done => rfl
  | fault => rfl

theorem calls (h : Exchanged s t o) : ∃ calls : List Auth.Call, o.calls = calls.map .auth := by
  cases h with
  | challenge => exact ⟨_, rfl⟩
  | done => exact ⟨_, rfl⟩
  | fault => exact ⟨_, rfl⟩

theorem keeps (h : Exchanged s t o) : Keeps s o := by
  cases h with
  | challenge => exact ⟨rfl, rfl, rfl, rfl, _, rfl⟩
  | done => exact ⟨rfl, rfl, rfl, rfl, _, rfl⟩
  | fault => exact ⟨rfl, rfl, rfl, rfl, _, rfl⟩

end Exchanged

section Keeps

variable (s : Session α δ)

omit [Authenticator α] in
theorem acceptSender_keeps (address : Address) : Keeps s (Command.acceptSender s address) :=
  (acceptSender_asked s address).keeps rfl

omit [Authenticator α] in
theorem acceptRecipient_keeps (address : Address) :
    Keeps s (Command.acceptRecipient s address) :=
  (acceptRecipient_asked s address).keeps rfl

omit [Handler δ] in
theorem exchange_keeps (text : String) : Keeps s (Command.exchange s text) :=
  (exchange_exchanged s text).keeps

end Keeps

namespace Effect

variable {s : Session α δ} {frame : Frame} {o : Outcome α δ}

theorem settings (h : Effect s frame o) : o.session.settings = s.settings := by
  cases h with
  | sender address => exact (acceptSender_keeps s address).settings
  | recipient address => exact (acceptRecipient_keeps s address).settings
  | exchange text => exact (exchange_keeps s text).settings
  | _ => rfl

theorem offersTls (h : Effect s frame o) : o.session.offersTls = s.offersTls := by
  cases h with
  | sender address => exact (acceptSender_keeps s address).offersTls
  | recipient address => exact (acceptRecipient_keeps s address).offersTls
  | exchange text => exact (exchange_keeps s text).offersTls
  | _ => rfl

/-- Nothing of the peer changes but the user. -/
theorem peer (h : Effect s frame o) :
    o.session.peer = { s.peer with user := o.session.peer.user } := by
  cases h with
  | sender address => rw [(acceptSender_asked s address).session]
  | recipient address => rw [(acceptRecipient_asked s address).session]
  | exchange text => rw [(exchange_exchanged s text).session]
  | _ => rfl

/-- TLS is only asked for by `STARTTLS`, which has the session forget everything. -/
theorem wants (h : Effect s frame o) :
    o.session.wantsTls = s.wantsTls ∨
      s.offersTls = true ∧ s.peer.secure = false ∧
        o.session = { s.forget.next with wantsTls := true } := by
  cases h with
  | startTls hv hsecure hoffers => exact .inr ⟨hoffers, hsecure, rfl⟩
  | sender address => exact .inl (acceptSender_keeps s address).wantsTls
  | recipient address => exact .inl (acceptRecipient_keeps s address).wantsTls
  | exchange text => exact .inl (exchange_keeps s text).wantsTls
  | _ => exact .inl rfl

/-- A session to which TLS is not offered never starts it. -/
theorem wantsTls (h : Effect s frame o) (hoffers : s.offersTls = false) :
    o.session.wantsTls = s.wantsTls := by
  obtain hwants | ⟨hoffers', -⟩ := h.wants
  · exact hwants
  · rw [hoffers] at hoffers'
    cases hoffers'

omit [Authenticator α] [Handler δ] in
theorem verb_of_deliver {m : Message}
    (hm : frame = .message m ∨ s.verb? frame = some Verb.dataEnd ∧ s.pending = some m) :
    s.verb? frame = some Verb.dataEnd := by
  cases hm with
  | inl hm => rw [hm]; rfl
  | inr hm => exact hm.1

omit [Authenticator α] [Handler δ] in
theorem active_of_verb {verb : String} (hv : s.verb? frame = some verb) (hverb : verb ≠ Verb.quit)
    (hkeeps : o.session.progress.active = s.progress.active) :
    o.session.progress.active
      = (s.progress.active && decide (s.verb? frame ≠ some Verb.quit)) := by
  have hne : s.verb? frame ≠ some Verb.quit := fun h => hverb (Option.some.inj (hv.symm.trans h))
  rw [hkeeps, decide_eq_true hne, Bool.and_true]

/-- Only `QUIT` ends a session. -/
theorem active (h : Effect s frame o) :
    o.session.progress.active
      = (s.progress.active && decide (s.verb? frame ≠ some Verb.quit)) := by
  cases h with
  | quit hv => simp [hv, Session.say, Session.answer, Progress.mark]
  | stay r hidle => rw [decide_eq_true hidle.quit, Bool.and_true]; rfl
  | greet r hv =>
      cases hv with
      | inl hv => exact active_of_verb hv (by decide) rfl
      | inr hv => exact active_of_verb hv (by decide) rfl
  | sender address hv => exact active_of_verb hv (by decide) (acceptSender_keeps s address).active
  | recipient address hv =>
      exact active_of_verb hv (by decide) (acceptRecipient_keeps s address).active
  | exchange text _ hv => exact active_of_verb hv (by decide) (exchange_keeps s text).active
  | deliver m hm => exact active_of_verb (verb_of_deliver hm) (by decide) rfl
  | reset hv => exact active_of_verb hv (by decide) rfl
  | startTls hv => exact active_of_verb hv (by decide) rfl
  | data hv => exact active_of_verb hv (by decide) rfl
  | cancel hv => exact active_of_verb hv (by decide) rfl

/-- No frame fails but at the end of a message. -/
theorem answer_error {failure : Failure} (h : Effect s frame o) (hfail : o.answer = .error failure) :
    ∃ detail, failure = .delivery detail := by
  have hreplies : (∃ r, o.answer = .ok r) → ∃ detail, failure = .delivery detail := by
    rintro ⟨r, hr⟩
    rw [hr] at hfail
    cases hfail
  cases h with
  | deliver m _ =>
      simp only [Session.deliver, Command.deliveryAnswer] at hfail
      split at hfail
      all_goals cases hfail
      exact ⟨_, rfl⟩
  | sender address => exact hreplies (acceptSender_keeps s address).answer
  | recipient address => exact hreplies (acceptRecipient_keeps s address).answer
  | exchange text => exact hreplies (exchange_keeps s text).answer
  | _ => exact hreplies ⟨_, rfl⟩

end Effect

end SmtpReceiver
