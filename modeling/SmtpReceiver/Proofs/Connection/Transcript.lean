import SmtpReceiver.Proofs.Auth.Stages
import SmtpReceiver.Proofs.Connection.Modes
import SmtpReceiver.Proofs.Connection.Moves
import SmtpReceiver.Proofs.Reply.Commands

/-!
# The replies in what is written

A run writes the greeting, then what there is to say about each frame, and then at most
one reply with which it closes.  If a write fails, then nothing of it is written and the
run is closed, so only the last of these replies can be missing (`Uttered`).

All of them can be read, although some quote the client.  What is quoted comes from the
line of a frame, and the decoder has taken the CRLF off it.  So a client that reads what
was written finds exactly the replies that were given (`replies_read_back`).
-/

namespace SmtpReceiver

open Auth (Authenticator Open PlainLogin Validator)
open Delivery (Fanout Handler Listener)
open Framing (Decoder Frame IsLine crlf)
open Text (Base64 Bytes LawfulBase64 Unbroken)

variable {α δ : Type}

/-- What the client is told about a frame.  If the session fails at it, it is told that. -/
def Event.reply (e : Event α δ) : Reply :=
  match e.outcome.answer with
  | .ok r => r
  | .error failure => failure.reply

/-- Some write to the client is to fail. -/
def Client.FailsWrites (client : Client) : Prop :=
  client.greetingError ≠ none ∨ ∃ kind, .writeError kind ∈ client.steps

namespace Run

/-- What a run that is closed may say beyond the replies to frames. -/
inductive Closing (r : Run α δ) : List Reply → Prop where
  | nothing : Closing r []
  | idle : r.IsClosed → Closing r [tooIdle]
  | failure (f : Failure) : r.phase = .closed (.error f) → Closing r [f.reply]

/-- The run has given these replies.  All of them were written, or all but the last one, because
that write failed and closed the run. -/
structure Uttered [Authenticator α] [Handler δ] (faulty : Prop) (P : δ → Prop) (r : Run α δ)
    (replies : List Reply) : Prop where
  table : r.table = .builtin
  session : r.session.Discreet P
  fault : r.wire.fault ≠ none → faulty
  written : r.wire.written = replies.flatMap Reply.wire ∨
    faulty ∧ r.IsClosed ∧
      ∃ said lost, replies = said ++ [lost] ∧ r.wire.written = said.flatMap Reply.wire

theorem Closing.of_open {r : Run α δ} {closing : List Reply} (h : r.Closing closing)
    (hopen : ¬ r.IsClosed) : closing = [] := by
  cases h with
  | nothing => rfl
  | idle hclosed => exact absurd hclosed hopen
  | failure f hclosed => exact absurd ⟨_, hclosed⟩ hopen

section Uttered

variable [Authenticator α] [Handler δ] {faulty : Prop} {P : δ → Prop} {r r' : Run α δ}
  {replies : List Reply}

theorem Uttered.written_of_open (h : r.Uttered faulty P replies) (hopen : ¬ r.IsClosed) :
    r.wire.written = replies.flatMap Reply.wire := by
  obtain hwritten | ⟨-, hclosed, -⟩ := h.written
  · exact hwritten
  · exact absurd hclosed hopen

/-- A run that is open may change in any way that writes nothing. -/
theorem Uttered.of_open (h : r.Uttered faulty P replies) (hopen : ¬ r.IsClosed)
    (htable : r'.table = r.table) (hsession : r'.session.Discreet P)
    (hfault : r'.wire.fault ≠ none → faulty) (hwritten : r'.wire.written = r.wire.written) :
    r'.Uttered faulty P replies :=
  ⟨htable.trans h.table, hsession, hfault, .inl (hwritten.trans (h.written_of_open hopen))⟩

theorem Uttered.close (h : r.Uttered faulty P replies) (hopen : ¬ r.IsClosed)
    (result : Except Failure Unit) : (r.close result).Uttered faulty P replies :=
  h.of_open hopen rfl h.session h.fault rfl

theorem Uttered.shut (h : r.Uttered faulty P replies) (hopen : ¬ r.IsClosed)
    (result : Except Failure Unit) : (r.shut result).Uttered faulty P replies :=
  h.of_open hopen rfl h.session h.fault rfl

/-- A reply is written, or that fails.  In the second case the run has to be closed. -/
theorem Uttered.write (h : r.Uttered faulty P replies) (hopen : ¬ r.IsClosed) (reply : Reply) :
    (∃ wire, r.write reply = (none, { r with wire }) ∧
      Uttered faulty P { r with wire } (replies ++ [reply])) ∨
    ∃ cause wire, r.write reply = (some cause, { r with wire }) ∧ ∀ shut result,
      Uttered faulty P { r with wire := { wire with shut }, phase := .closed result }
        (replies ++ [reply]) := by
  have hwritten := h.written_of_open hopen
  cases hfault : r.wire.fault with
  | none =>
      left
      obtain ⟨wire, hwrite, hnone, hwire⟩ := Wire.write_of_sound hfault reply.wire
      refine ⟨wire, ?_, h.table, h.session, fun hne => absurd hnone hne, .inl ?_⟩
      · simp only [Run.write, hwrite]
      · show wire.written = _
        rw [hwire, hwritten, List.flatMap_append, List.flatMap_singleton]
  | some kind =>
      right
      have hfaulty := h.fault (by simp [hfault])
      refine ⟨⟨kind, kind.name⟩, { r.wire with fault := none }, ?_, fun shut result => ?_⟩
      · simp only [Run.write, Wire.write, hfault]
      · exact ⟨h.table, h.session, fun hne => absurd rfl hne,
          .inr ⟨hfaulty, ⟨result, rfl⟩, replies, reply, rfl, hwritten⟩⟩

theorem Uttered.writeNothing (h : r.Uttered faulty P replies) (hopen : ¬ r.IsClosed)
    {cause? : Option IoFailure} {wire : Wire} (hwrite : r.wire.write [] = (cause?, wire)) :
    Uttered faulty P { r with wire } replies := by
  have hfault := r.wire.fault_write []
  have hwritten := r.wire.written_write_nil
  rw [hwrite] at hfault hwritten
  exact h.of_open hopen rfl h.session (fun hne => absurd hfault hne) hwritten

theorem Uttered.farewell (h : r.Uttered faulty P replies) (hopen : ¬ r.IsClosed) (reply : Reply) :
    (r.farewell reply).Uttered faulty P (replies ++ [reply]) := by
  unfold Run.farewell
  obtain ⟨wire, hwrite, hsaid⟩ | ⟨cause, wire, hwrite, hlost⟩ := h.write hopen reply
  · rw [hwrite]
    exact hsaid.shut hopen _
  · rw [hwrite]
    exact hlost wire.shut _

/-- What a failure has the client told. -/
def lastWords (f : Failure) : List Reply := if f.isDisconnect then [] else [f.reply]

theorem Uttered.fail (h : r.Uttered faulty P replies) (hopen : ¬ r.IsClosed) (f : Failure) :
    (r.fail f).Uttered faulty P (replies ++ lastWords f) := by
  unfold Run.fail lastWords
  split
  next =>
    rw [List.append_nil]
    exact h.close hopen _
  next =>
    obtain ⟨wire, hwrite, hsaid⟩ | ⟨cause, wire, hwrite, hlost⟩ := h.write hopen f.reply
    · rw [hwrite]
      exact hsaid.shut hopen _
    · rw [hwrite]
      exact hlost true _

omit [Authenticator α] [Handler δ] in
theorem closing_fail (r : Run α δ) (f : Failure) : (r.fail f).Closing (lastWords f) := by
  unfold Run.fail lastWords
  split
  next => exact .nothing
  next => exact .failure f rfl

theorem Uttered.settleQuit (h : r.Uttered faulty P replies) (hopen : ¬ r.IsClosed) :
    r.settleQuit.Uttered faulty P replies := by
  unfold Run.settleQuit
  split
  next => exact h
  next => exact h.shut hopen _

/-- TLS changes what is known of the client, but none of the texts that it gets to read. -/
theorem Uttered.startTls (h : r.Uttered faulty P replies) (hopen : ¬ r.IsClosed) :
    (Run.settleQuit (secured r)).Uttered faulty P replies :=
  Uttered.settleQuit
    (h.of_open hopen rfl ⟨h.session.hostName, h.session.delivery⟩ h.fault rfl)
    (not_closed_of_reading rfl)

theorem Uttered.afterReply (h : r.Uttered faulty P replies) (hopen : ¬ r.IsClosed) :
    r.afterReply.Uttered faulty P replies := by
  unfold Run.afterReply
  split
  next =>
    obtain ⟨decoder, buffer, phase, hbegin, -⟩ := r.beginTls_eq
    rw [hbegin]
    exact h.of_open hopen rfl ⟨h.session.hostName, h.session.delivery⟩ h.fault rfl
  next => exact h.settleQuit hopen

/-- A frame adds the reply to it. -/
theorem Uttered.takeFrame (h : r.Uttered faulty P replies) (hopen : ¬ r.IsClosed)
    (hP : Delivery.Legible P) (frame : Frame) :
    (r.takeFrame frame).Uttered faulty P
      (replies ++ [Event.reply ⟨r.session, frame, r.table.dispatch frame r.session⟩]) := by
  have hnext := h.session.dispatch hP frame
  have heffect := dispatch_effect r.session frame
  unfold Run.takeFrame Event.reply
  rw [← h.table] at hnext heffect
  generalize r.table.dispatch frame r.session = o at hnext heffect
  have ho : Uttered faulty P { r with session := o.session, calls := r.calls ++ o.calls } replies :=
    h.of_open hopen rfl hnext h.fault rfl
  dsimp only
  cases hanswer : o.answer with
  | error failure =>
      obtain ⟨detail, rfl⟩ := heffect.answer_error hanswer
      exact ho.fail hopen _
  | ok reply =>
      obtain ⟨wire, hwrite, hsaid⟩ | ⟨cause, wire, hwrite, hlost⟩ := ho.write hopen reply
      · simp only [hwrite]
        exact hsaid.afterReply hopen
      · simp only [hwrite]
        exact hlost wire.shut _

end Uttered

/-! ## Steps of the client -/

/-- The run has given these replies, and has closed with one more or none. -/
def Told [Authenticator α] [Handler δ] (faulty : Prop) (P : δ → Prop) (r : Run α δ)
    (replies : List Reply) : Prop :=
  ∃ closing, r.Closing closing ∧ r.Uttered faulty P (replies ++ closing)

section Told

variable [Authenticator α] [Handler δ] {faulty : Prop} {P : δ → Prop} {r r' : Run α δ}
  {replies : List Reply}

theorem Uttered.told (h : r.Uttered faulty P replies) : r.Told faulty P replies :=
  ⟨[], .nothing, by rwa [List.append_nil]⟩

theorem Told.uttered (h : r.Told faulty P replies) (hopen : ¬ r.IsClosed) :
    r.Uttered faulty P replies := by
  obtain ⟨closing, hclosing, hsaid⟩ := h
  rwa [hclosing.of_open hopen, List.append_nil] at hsaid

/-- A run that is open may go on with the same session and the same transport. -/
theorem Told.of_open (h : r.Told faulty P replies) (hopen : ¬ r.IsClosed)
    (htable : r'.table = r.table) (hsession : r'.session = r.session) (hwire : r'.wire = r.wire) :
    r'.Told faulty P replies := by
  have hsaid := h.uttered hopen
  refine Uttered.told (hsaid.of_open hopen htable ?_ ?_ (congrArg _ hwire))
  · rw [hsession]
    exact hsaid.session
  · rw [hwire]
    exact hsaid.fault

theorem Told.of_wire (h : r.Told faulty P replies) {wire : Wire}
    (hfault : wire.fault ≠ none → faulty) (hwritten : wire.written = r.wire.written) :
    Told faulty P { r with wire } replies := by
  obtain ⟨closing, hclosing, hsaid⟩ := h
  refine ⟨closing, ?_, hsaid.table, hsaid.session, hfault, ?_⟩
  · cases hclosing with
    | nothing => exact .nothing
    | idle hclosed => exact .idle hclosed
    | failure f hclosed => exact .failure f hclosed
  · show wire.written = _ ∨ faulty ∧ r.IsClosed ∧ ∃ said lost, _ ∧ wire.written = _
    rw [hwritten]
    exact hsaid.written

theorem Told.turn (h : r.Told faulty P replies) :
    Told faulty P { r with wire := r.wire.turn } replies := by
  have hfault : r.wire.fault ≠ none → faulty := by
    obtain ⟨closing, -, hsaid⟩ := h
    exact hsaid.fault
  exact h.of_wire hfault (Wire.written_turn _)

theorem Told.fail (h : r.Told faulty P replies) (hopen : ¬ r.IsClosed) (f : Failure) :
    (r.fail f).Told faulty P replies :=
  ⟨lastWords f, closing_fail r f, (h.uttered hopen).fail hopen f⟩

/-- Whatever a run does between frames, it gives at most one reply more, and with that it closes. -/
theorem Told.move {steps : List ClientStep} (h : r.Told faulty P replies) (hmove : Move steps r r')
    (hfaulty : ∀ kind, .writeError kind ∈ steps → faulty) : r'.Told faulty P replies := by
  cases hmove with
  | stay => exact h
  | turn => exact h.turn
  | wait idle' hphase => exact h.of_open (not_closed_of_reading hphase) rfl rfl rfl
  | read bs hphase => exact h.of_open (not_closed_of_reading hphase) rfl rfl rfl
  | decode hphase => exact h.of_open (not_closed_of_reading hphase) rfl rfl rfl
  | tooIdle hphase =>
      have hopen := not_closed_of_reading hphase
      exact ⟨[Run.tooIdle], .idle (farewell_closed _ _), (h.uttered hopen).farewell hopen _⟩
  | readError kind hphase => exact h.fail (not_closed_of_reading hphase) _
  | badFrame hphase => exact h.fail (not_closed_of_reading hphase) _
  | writeError kind hmem => exact h.of_wire (fun _ => hfaulty kind hmem) rfl
  | noTls cause hphase => exact h.of_open (not_closed_of_handshake hphase) rfl rfl rfl
  | lostTls hphase hwrite =>
      have hopen := not_closed_of_handshake hphase
      exact (((h.uttered hopen).writeNothing hopen hwrite).close hopen _).told
  | startTls hphase hwrite =>
      have hopen := not_closed_of_handshake hphase
      exact (((h.uttered hopen).writeNothing hopen hwrite).startTls hopen).told

end Told

end Run

/-! ## Recordings -/

namespace Recording

/-- The greeting and the reply to each frame were given, and at most one more reply.  What was told in
the words of others could be read each time. -/
structure Spoken [Authenticator α] [Handler δ] (faulty : Prop) (P : δ → Prop) (greeting : Reply)
    (c : Recording α δ) : Prop where
  entries : ∀ e ∈ c.entries, e.before.Discreet P
  told : c.run.Told faulty P (greeting :: c.entries.map fun e => e.reply)

variable [Authenticator α] [Handler δ] {faulty : Prop} {P : δ → Prop} {greeting : Reply}
  {c : Recording α δ}

/-- Moves and frames keep it, as long as a write that is to fail is allowed for. -/
theorem Spoken.invariant (hP : Delivery.Legible P) {steps : List ClientStep}
    (hfaulty : ∀ kind, .writeError kind ∈ steps → faulty) :
    Invariant steps fun (es : List (Entry α δ)) r =>
      Spoken faulty P greeting { run := r, entries := es } where
  move h hmove := ⟨h.entries, h.told.move hmove hfaulty⟩
  frame {es r idle e} h hreading hbefore houtcome := by
    have hopen := Run.not_closed_of_reading hreading
    have hsaid := h.told.uttered hopen
    refine ⟨List.forall_mem_append.2 ⟨h.entries, List.forall_mem_singleton.2 ?_⟩, ?_⟩
    · rw [hbefore]
      exact hsaid.session
    · have hreply : e.reply
          = Event.reply ⟨r.session, e.frame, r.table.dispatch e.frame r.session⟩ := by
        rw [← houtcome, ← hbefore]
      show (r.takeFrame e.frame).Told faulty P (greeting :: (es ++ [e]).map fun e => e.reply)
      rw [List.map_append, List.map_singleton, hreply]
      exact (hsaid.takeFrame hopen hP e.frame).told

theorem Spoken.through (hP : Delivery.Legible P) {steps : List ClientStep} {r : Run α δ}
    (h : Spoken faulty P greeting { run := r })
    (hfaulty : ∀ kind, .writeError kind ∈ steps → faulty) :
    (through steps { run := r }).Spoken faulty P greeting := by
  have hholds := (Spoken.invariant hP hfaulty).started h
  exact ⟨hholds.now.entries, hholds.now.told⟩

theorem spoken_start {c : Connection α δ} (htable : c.table = .builtin)
    (hdiscreet : c.session.Discreet P) (hadmitted : c.isRefused = false)
    {greetingError : Option IoKind} (hfaulty : greetingError ≠ none → faulty) :
    Spoken faulty P (.line .ready c.session.settings.greeting)
      { run := Run.start c greetingError } := by
  refine ⟨fun e he => absurd he List.not_mem_nil, ?_⟩
  show (Run.start c greetingError).Told faulty P [.line .ready c.session.settings.greeting]
  have hempty : Run.Uttered faulty P
      { session := c.session, table := c.table, hasTls := c.hasTls,
        wire := { fault := greetingError } } [] :=
    ⟨htable, hdiscreet, hfaulty, .inl rfl⟩
  have hopen : ¬ Run.IsClosed
      { session := c.session, table := c.table, hasTls := c.hasTls,
        wire := { fault := greetingError } } := Run.not_closed_of_reading rfl
  simp only [Run.start, hadmitted, Bool.false_eq_true, if_false]
  obtain ⟨wire, hwrite, hsaid⟩ | ⟨cause, wire, hwrite, hlost⟩ :=
    hempty.write hopen (.line .ready c.session.settings.greeting)
  · simp only [hwrite]
    exact hsaid.told
  · simp only [hwrite]
    exact (hlost wire.shut _).told

end Recording

/-! ## Reading what was written -/

section Entries

variable [Authenticator α] [Handler δ] {e : Entry α δ} {P : δ → Prop}

/-- The line of a frame holds no CRLF, since it was read from the bytes up to one. -/
theorem Entry.Sound.unbroken (h : e.Sound) {line : String} (hframe : e.frame = .line line) :
    Unbroken line.toList := by
  have hkind : e.frame.kind = .line := by rw [hframe]; rfl
  obtain ⟨l, hl, hused⟩ := h.line hkind
  have hdecoded := h.decoded
  rw [Decoder.due_eq_line.1 (h.kind.symm.trans hkind), hused, ← List.append_nil (l ++ crlf),
    Decoder.decode_line hl, Framing.lineResult, hframe] at hdecoded
  split at hdecoded
  next =>
    have hresult : Except.ok (some (Frame.line (e.before.settings.charset.decode l)))
        = Except.ok (some (Frame.line line)) := congrArg Decoder.Decoded.result hdecoded
    obtain rfl := Frame.line.inj (Option.some.inj (Except.ok.inj hresult))
    exact Text.unbroken_charset_decode _ hl
  next => cases hdecoded

theorem Entry.Sound.readable (h : e.Sound) (hauth : Auth.Legible α) (hP : Delivery.Legible P)
    (hbefore : e.before.Discreet P) : e.reply.Readable := by
  have houtcome : e.outcome.Readable := by
    rw [h.answered]
    exact readable_dispatch hauth hP hbefore fun _ => h.unbroken
  unfold Event.reply
  split
  next r hanswer => exact houtcome r hanswer
  next failure _ => exact failure.readable_reply

end Entries

theorem Run.Closing.readable {r : Run α δ} {closing : List Reply} (h : r.Closing closing) :
    ∀ reply ∈ closing, reply.Readable := by
  cases h with
  | nothing => exact fun reply hreply => absurd hreply List.not_mem_nil
  | idle => exact List.forall_mem_singleton.2 (Reply.readable_solid (by decide +kernel))
  | failure f => exact List.forall_mem_singleton.2 f.readable_reply

theorem Settings.readable_greeting {settings : Settings}
    (h : Unbroken settings.hostName.toList) : (Reply.line .ready settings.greeting).Readable := by
  refine Reply.readable_line ?_
  rw [greeting, String.toList_append, String.toList_append]
  exact (h.before_solid (by decide)).before_solid (by decide)

/-- Reading what was written to an admitted client gives the greeting, the reply to each frame, and
at most one reply with which the run closed.  Only a write that has failed keeps the last of them back.
No two sequences of replies that can be read are written alike. -/
theorem replies_read_back [Base64] [LawfulBase64] {ω : Type} (settings : Settings)
    (v? : Option Validator) (listeners : List (Listener ω)) (world : ω) (hasTls : Bool)
    (remote : Option String) (place : Option Nat) (client : Client)
    (hadmitted : isOverCapacity settings.maxConnections place = false)
    (hhost : Unbroken settings.hostName.toList) (hlisteners : ∀ l ∈ listeners, l.Legible) :
    let c : Connection (Open ⊕ PlainLogin) (Fanout ω) :=
      { Connection.make settings .builtin (Auth.standard v?) { listeners, world } hasTls remote with
        place }
    let t := c.recorded client
    (∃ closing lost rs, t.run.Closing closing ∧
      rs ++ lost = .line .ready settings.greeting :: t.entries.map (fun e => e.reply) ++ closing ∧
      (lost = [] ∨ lost.length = 1 ∧ (c.taken client).FailsWrites) ∧
      Reply.read? (c.run client).transcript.flatten = some rs) ∧
    Set.InjOn Reply.wire { r | r.Readable } ∧
    Set.InjOn (List.flatMap Reply.wire) { rs | ∀ r ∈ rs, r.Readable } := by
  intro c t
  refine ⟨?_, Reply.wire_injOn, Reply.flatMap_wire_injOn⟩
  have htable : c.table = .builtin := by simp only [c, Connection.make]
  have hdiscreet : c.session.Discreet Fanout.HasLegible := ⟨hhost, hlisteners, List.forall_mem_nil _⟩
  have hspoken : t.Spoken (c.taken client).FailsWrites Fanout.HasLegible
      (.line .ready settings.greeting) := by
    rw [← show c.recorded (c.taken client) = t from c.recorded_taken client]
    exact (Recording.spoken_start htable hdiscreet hadmitted .inl).through Fanout.legible
      fun kind hkind => .inr ⟨kind, hkind⟩
  have hsound : t.Sound :=
    (Recording.sound_start htable rfl rfl client.greetingError).through client.steps
  obtain ⟨closing, hclosing, hsaid⟩ := hspoken.told
  have hentries : ∀ e ∈ t.entries, e.reply.Readable := fun e he =>
    (hsound.entries e he).readable Auth.legible_standard Fanout.legible (hspoken.entries e he)
  have hgreeting := Settings.readable_greeting hhost
  have hreadable := List.forall_mem_append.2
    ⟨List.forall_mem_cons.2 ⟨hgreeting, List.forall_mem_map.2 hentries⟩, hclosing.readable⟩
  have hwire : (c.run client).transcript.flatten = t.run.wire.written :=
    congrArg List.flatten (Connection.transcript_run c client)
  rw [hwire]
  obtain hwritten | ⟨hfaulty, -, said, last, hreplies, hwritten⟩ := hsaid.written
  · refine ⟨closing, [], _, hclosing, List.append_nil _, .inl rfl, ?_⟩
    rw [hwritten]
    exact Reply.read_flatMap_wire hreadable
  · refine ⟨closing, [last], said, hclosing, hreplies.symm, .inr ⟨rfl, hfaulty⟩, ?_⟩
    rw [hwritten]
    rw [hreplies] at hreadable
    exact Reply.read_flatMap_wire (List.forall_mem_append.1 hreadable).1

/-- A client has a line quoted that looks like a reply. -/
theorem replies_read_back_quoted :
    let settings : Settings := {}
    let listeners : List (Listener Unit) :=
      [.prepared 0 .anyone none (.error (.rejected ⟨550, "250-no"⟩))]
    let client : Client :=
      { steps := [.send (Text.encode "HELO a\r\nMAIL FROM:<250 Ok\n250>\r\nQUIT\r\n")] }
    let c : Connection (Open ⊕ PlainLogin) (Fanout Unit) :=
      { Connection.make settings .builtin (Auth.standard none) { listeners, world := () } false none
        with place := some 1 }
    let t := c.recorded client
    isOverCapacity settings.maxConnections (some 1) = false ∧
    Unbroken settings.hostName.toList ∧
    (∀ l ∈ listeners, l.Legible) ∧
    (c.run client).transcript.map Text.decode
      = ["220 localhost ESMTP Mailgate\r\n",
        "250 localhost\r\n553 <250 Ok\n250> Invalid email address\r\n221 Bye\r\n"] ∧
    ∃ closing lost rs, t.run.Closing closing ∧
      rs ++ lost = .line .ready settings.greeting :: t.entries.map (fun e => e.reply) ++ closing ∧
      (lost = [] ∨ lost.length = 1 ∧ (c.taken client).FailsWrites) ∧
      Reply.read? (c.run client).transcript.flatten = some rs := by
  intro settings listeners client c t
  have hadmitted : isOverCapacity settings.maxConnections (some 1) = false := by decide
  have hhost : Unbroken settings.hostName.toList := Text.Solid.unbroken (by decide)
  have hlisteners : ∀ l ∈ listeners, l.Legible := by
    refine List.forall_mem_singleton.2 ?_
    rintro _ _ _ _ _ _ ⟨⟩
    exact Text.Solid.unbroken (by decide)
  exact ⟨hadmitted, hhost, hlisteners, by decide +kernel,
    (replies_read_back settings none listeners () false none (some 1) client hadmitted hhost
      hlisteners).1⟩

end SmtpReceiver
