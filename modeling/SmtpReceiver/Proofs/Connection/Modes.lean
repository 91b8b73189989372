import SmtpReceiver.Proofs.Command.Data
import SmtpReceiver.Proofs.Connection.Recording

/-!
# Messages and commands never trade places

The decoder takes the CRLF before a message for the start of its delimiter.  That is
right only if a message is read exactly after an accepted `DATA`, and from the byte
right behind its line.  The kind of the next frame is set by one command, is taken
back by others, and is looked at by the decoder only when a frame begins.

What a recording keeps over all steps is `Recording.Sound`.  Two things carry it.
A fresh decoder that is given the bytes of the frame in progress is where the
decoder of the run is, so each frame can be told from its own bytes.  And a message
is expected exactly if the last frame was a `DATA` that was accepted.  That is true
after a frame of the kind that was due (`dispatch_due`), and no other comes.
-/

namespace SmtpReceiver

open Auth (Authenticator)
open Delivery (Handler)
open Framing (Decoder Frame IsLine crlf)
open Text (Bytes)

variable {α δ : Type}

/-! ## Entries -/

namespace Entry

/-- The bytes that were read up to the next frame. -/
def bytes (e : Entry α δ) : Bytes := e.used ++ e.dropped

/-- The frame is what a fresh decoder makes of its bytes, and was answered by the commands of the
receiver.  Nothing is dropped between a `DATA` that was accepted and the message. -/
structure Sound [Authenticator α] [Handler δ] (e : Entry α δ) : Prop where
  answered : e.outcome = CommandTable.builtin.dispatch e.frame e.before
  decoded : Decoder.decode e.before.settings {} e.before.progress.expectsMessage e.used
    = ⟨{}, [], .ok (some e.frame)⟩
  dropped : e.opensMessage → e.dropped = []

variable [Authenticator α] [Handler δ] {e : Entry α δ}

theorem Sound.kind (h : e.Sound) :
    e.frame.kind = Decoder.due e.before.progress.expectsMessage := by
  have hgives : Decoder.Gives e.before.progress.expectsMessage
      (Decoder.decode e.before.settings {} e.before.progress.expectsMessage e.used).decoder
      (Decoder.decode e.before.settings {} e.before.progress.expectsMessage e.used).result :=
    (Decoder.isDue_fresh _).decode e.used
  rw [h.decoded] at hgives
  exact (hgives.frame e.frame rfl).1

/-- A line was read from the bytes up to its CRLF. -/
theorem Sound.line (h : e.Sound) (hline : e.frame.kind = .line) :
    ∃ l, IsLine l ∧ e.used = l ++ crlf := by
  have hexpects : e.before.progress.expectsMessage = false :=
    Decoder.due_eq_line.1 (h.kind.symm.trans hline)
  have hdecoded := h.decoded
  rw [hexpects] at hdecoded
  cases hcut : Framing.cut? e.used with
  | none =>
      have hopen : (Decoder.decode e.before.settings {} false e.used).result = .ok none :=
        (Decoder.decode_open_line (Framing.cut?_eq_none.1 hcut)).2
      rw [hdecoded] at hopen
      cases hopen
  | some p =>
      obtain ⟨l, rest⟩ := p
      obtain ⟨hl, hused⟩ := Framing.eq_of_cut? hcut
      rw [hused, Decoder.decode_line hl rest] at hdecoded
      obtain rfl : rest = [] := congrArg Decoder.Decoded.rest hdecoded
      exact ⟨l, hl, by rw [hused, List.append_nil]⟩

end Entry

/-- The last of the frames was a `DATA` that was accepted. -/
def DueAfter (entries : List (Entry α δ)) : Prop :=
  ∃ d, entries.getLast? = some d ∧ d.opensMessage

theorem dueAfter_concat (entries : List (Entry α δ)) (e : Entry α δ) :
    DueAfter (entries ++ [e]) ↔ e.opensMessage := by
  simp [DueAfter]

/-- Each frame stands in a relation to those before it if that is true of the last one as well. -/
theorem relates_concat {ι : Type} {P : List ι → ι → Prop} {xs : List ι} {x : ι}
    (h : ∀ before y later, xs = before ++ y :: later → P before y) (hlast : P xs x)
    (before : List ι) (y : ι) (later : List ι) (heq : xs ++ [x] = before ++ y :: later) :
    P before y := by
  cases later using List.reverseRecOn with
  | nil =>
      obtain ⟨rfl, hx⟩ := List.append_inj' heq rfl
      cases hx
      exact hlast
  | append_singleton later last =>
      rw [← List.cons_append, ← List.append_assoc] at heq
      exact h before y later (List.append_inj' heq rfl).1

/-- The frame in progress is of the kind that the session expects. -/
def Run.IsInMode (r : Run α δ) : Prop := Decoder.IsDue r.session.progress.expectsMessage r.decoder

namespace Recording

variable [Authenticator α] [Handler δ]

/-! ## What is known of a recording -/

/-- What is known of a recording whose run is not closed. -/
structure Live (c : Recording α δ) : Prop where
  opened : Decoder.decode c.run.session.settings {} c.run.session.progress.expectsMessage c.opened
    = ⟨c.run.decoder, [], .ok none⟩
  due : c.run.session.progress.expectsMessage = true ↔ DueAfter c.entries
  wantsTls : c.run.session.wantsTls = false

/-- The entries tell the truth, and nothing is missing among them. -/
structure Complete (c : Recording α δ) : Prop where
  /-- Every byte that was read belongs to one frame, or was dropped behind one, or is left. -/
  read : c.read = c.entries.flatMap Entry.bytes ++ c.opened ++ c.run.buffer
  calls : c.run.calls = c.entries.flatMap fun e => e.outcome.calls
  entries : ∀ e ∈ c.entries, e.Sound
  latest : c.run ∈ c.moments

/-- What is known of a recording. -/
structure Sound (c : Recording α δ) : Prop extends c.Complete where
  table : c.run.table = .builtin
  order : ∀ before e later, c.entries = before ++ e :: later →
    (e.frame.kind = .message ↔ DueAfter before)
  moments : ∀ r ∈ c.moments, r.IsInMode
  live : c.run.IsClosed ∨ c.Live

variable {c : Recording α δ} {idle : Nat}

theorem Sound.live_of_reading (h : c.Sound) (hreading : c.run.phase = .reading idle) : c.Live := by
  obtain ⟨result, hclosed⟩ | hlive := h.live
  · rw [hreading] at hclosed
    cases hclosed
  · exact hlive

theorem Sound.isInMode (h : c.Sound) : c.run.IsInMode := h.moments c.run h.latest

theorem Sound.moments_concat (h : c.Sound) {r : Run α δ} (hmode : r.IsInMode) :
    ∀ r' ∈ c.moments ++ [r], r'.IsInMode :=
  List.forall_mem_append.2 ⟨h.moments, List.forall_mem_singleton.2 hmode⟩

/-- A run that rests changes nothing of what is known. -/
theorem Sound.become (h : c.Sound) {r : Run α δ} (hrests : Run.Rests c.run r) :
    (c.become r).Sound where
  table := hrests.table.trans h.table
  read := h.read.trans (congrArg _ hrests.buffer.symm)
  calls := hrests.calls.trans h.calls
  entries := h.entries
  order := h.order
  moments := by
    have hmode : r.IsInMode := by
      rw [Run.IsInMode, hrests.progress, hrests.decoder]
      exact h.isInMode
    exact h.moments_concat hmode
  latest := List.mem_concat_self
  live := by
    obtain hclosed | ⟨hopened, hdue, hwants⟩ := h.live
    · exact .inl (hrests.closed hclosed)
    · refine .inr ⟨?_, ?_, hrests.wantsTls.trans hwants⟩
      · show Decoder.decode r.session.settings {} r.session.progress.expectsMessage c.opened
          = ⟨r.decoder, [], .ok none⟩
        rw [hrests.settings, hrests.progress, hrests.decoder]
        exact hopened
      · show r.session.progress.expectsMessage = true ↔ DueAfter c.entries
        rw [hrests.progress]
        exact hdue

omit [Authenticator α] [Handler δ] in
/-- What the frame in progress becomes is what a fresh decoder makes of its bytes. -/
theorem Live.decode_uses (h : c.Live) {d : Decoder} {frame? : Option Frame}
    (hnext : c.run.decoder.decode c.run.session.settings c.run.session.progress.expectsMessage c.uses
      = ⟨d, [], .ok frame?⟩) :
    Decoder.decode c.run.session.settings {} c.run.session.progress.expectsMessage
      (c.opened ++ c.uses) = ⟨d, [], .ok frame?⟩ := by
  have happend := Decoder.decode_append_of_none c.uses (by rw [h.opened])
  rw [h.opened, hnext] at happend
  generalize Decoder.decode _ {} _ (c.opened ++ c.uses) = joined at happend ⊢
  dsimp only at happend
  obtain ⟨joined, rest, result⟩ := joined
  obtain ⟨rfl, rfl, hrest⟩ := happend
  obtain rfl := hrest frame? rfl
  rfl

/-- The bytes that are decoded come behind those of the frame in progress. -/
theorem Sound.read_uses (h : c.Sound) :
    c.read = c.entries.flatMap Entry.bytes ++ (c.opened ++ c.uses) ++ c.run.decoded.rest := by
  have huses : c.uses ++ c.run.decoded.rest = c.run.buffer := Decoder.uses_append _ _
  rw [h.read, ← huses]
  simp only [List.append_assoc]

theorem Sound.isInMode_afterDecoding (h : c.Sound) : c.run.afterDecoding.IsInMode :=
  (h.isInMode.decode c.run.buffer).isDue

/-! ## One call of the decoder -/

theorem Sound.of_none (h : c.Sound) (hreading : c.run.phase = .reading idle)
    (hresult : c.run.decoded.result = .ok none) : (c.keepOpen c.run.afterDecoding).Sound := by
  have hlive := h.live_of_reading hreading
  refine
    { table := h.table
      read := h.read_uses
      calls := h.calls
      entries := h.entries
      latest := List.mem_concat_self
      order := h.order
      moments := h.moments_concat h.isInMode_afterDecoding
      live := .inr ⟨hlive.decode_uses ?_, hlive.due, hlive.wantsTls⟩ }
  have hrest : c.run.decoded.rest = [] := Decoder.rest_decode_of_none hresult
  have huses : c.uses ++ c.run.decoded.rest = c.run.buffer := Decoder.uses_append _ _
  rw [hrest, List.append_nil] at huses
  rw [huses, ← hrest, ← hresult]
  rfl

section Frame

variable {frame : Frame}

omit [Handler δ] in
theorem answered_answers (c : Recording α δ) (frame : Frame) :
    Run.Answers (c.entry frame).outcome c.run.afterDecoding (c.answered frame) :=
  c.run.afterDecoding.takeFrame_answers frame

omit [Handler δ] in
/-- What is dropped behind a frame stands before what is left. -/
theorem dropped_append (c : Recording α δ) (frame : Frame) :
    (c.entry frame).dropped ++ (c.answered frame).buffer = c.run.decoded.rest := by
  refine List.suffix_iff_eq_append.1 ?_
  obtain hbuffer | ⟨-, hbuffer⟩ := (c.answered_answers frame).buffer
  · rw [hbuffer]
    exact List.suffix_refl _
  · rw [hbuffer]
    exact List.nil_suffix

theorem Sound.toEvent (h : c.Sound) (frame : Frame) :
    (c.entry frame).toEvent
      = ⟨c.run.session, frame, CommandTable.builtin.dispatch frame c.run.session⟩ := by
  rw [← h.table]
  rfl

theorem Sound.entry (h : c.Sound) (hreading : c.run.phase = .reading idle)
    (hresult : c.run.decoded.result = .ok (some frame)) : (c.entry frame).Sound where
  answered := congrArg Event.outcome (h.toEvent frame)
  decoded := (h.live_of_reading hreading).decode_uses (Decoder.decode_uses h.isInMode hresult)
  dropped hopens := by
    obtain hbuffer | ⟨hwants, -⟩ := (c.answered_answers frame).buffer
    · have hdropped := c.dropped_append frame
      rw [hbuffer] at hdropped
      exact List.append_left_eq_self.1 hdropped
    · -- Only a frame that asks for TLS has what is behind it dropped.
      rw [h.toEvent frame] at hopens hwants
      have hnot := (h.live_of_reading hreading).wantsTls
      rw [wantsTls_of_opensMessage hopens, hnot] at hwants
      cases hwants

theorem Sound.of_some (h : c.Sound) (hreading : c.run.phase = .reading idle)
    (hresult : c.run.decoded.result = .ok (some frame)) : (c.record frame).Sound := by
  have hlive := h.live_of_reading hreading
  have hanswers := c.answered_answers frame
  obtain ⟨hkind, hfresh⟩ := (h.isInMode.decode c.run.buffer).frame frame hresult
  have hdecoder : (c.answered frame).decoder = {} := hanswers.decoder hfresh
  have hopens : (c.answered frame).session.progress.expectsMessage = true ↔
      (c.entry frame).opensMessage := by
    rw [hanswers.progress, h.toEvent frame]
    exact dispatch_due hkind
  have hmode : (c.answered frame).IsInMode := by
    rw [Run.IsInMode, hdecoder]
    exact Decoder.isDue_fresh _
  refine
    { table := hanswers.table.trans h.table
      read := ?read
      calls := ?calls
      entries := List.forall_mem_append.2
        ⟨h.entries, List.forall_mem_singleton.2 (h.entry hreading hresult)⟩
      latest := List.mem_concat_self
      order := relates_concat (P := fun before e => e.frame.kind = .message ↔ DueAfter before)
        h.order ?last
      moments := h.moments_concat hmode
      live := ?live }
  case read =>
    show c.read = (c.entries ++ [c.entry frame]).flatMap Entry.bytes ++ [] ++ (c.answered frame).buffer
    rw [h.read_uses, ← c.dropped_append frame]
    simp [Entry.bytes, Recording.entry]
  case calls =>
    show (c.answered frame).calls = (c.entries ++ [c.entry frame]).flatMap fun e => e.outcome.calls
    rw [hanswers.calls, List.flatMap_append, ← h.calls, List.flatMap_singleton]
    rfl
  case last =>
    -- The frame is of the kind that was due, and a message was due after an accepted `DATA`.
    show frame.kind = .message ↔ _
    rw [← hlive.due, hkind]
    exact Decoder.due_eq_message
  case live =>
    obtain hclosed | hwants := hanswers.wantsTls
    · exact .inl hclosed
    · refine .inr ⟨?_, hopens.trans (dueAfter_concat _ _).symm, hwants⟩
      show _ = Decoder.Decoded.mk (c.answered frame).decoder [] (.ok none)
      rw [hdecoder]
      rfl

end Frame

/-- A failure closes the run. -/
theorem Sound.of_error (h : c.Sound) (failure : Failure) :
    (c.keepOpen (c.run.afterDecoding.fail failure)).Sound := by
  have hrests := c.run.afterDecoding.rests_fail failure
  have hmode : (c.run.afterDecoding.fail failure).IsInMode := by
    rw [Run.IsInMode, hrests.progress, hrests.decoder]
    exact h.isInMode_afterDecoding
  exact
    { table := hrests.table.trans h.table
      read := h.read_uses.trans (congrArg _ hrests.buffer.symm)
      calls := hrests.calls.trans h.calls
      entries := h.entries
      latest := List.mem_concat_self
      order := h.order
      moments := h.moments_concat hmode
      live := .inl (Run.fail_closed _ _) }

/-! ## Whole runs -/

theorem Sound.answerFrames (h : c.Sound) : c.answerFrames.Sound :=
  answerFrames_keeps (fun hreading hresult h => h.of_none hreading hresult)
    (fun hreading hresult h => h.of_some hreading hresult) (fun _ _ h => h.of_error _) h

theorem Sound.takeRead (h : c.Sound) (bs : Bytes) : (c.takeRead bs).Sound := by
  cases hphase : c.run.phase with
  | reading idle =>
      simp only [Recording.takeRead, hphase]
      refine Sound.answerFrames ?_
      obtain ⟨hopened, hdue, hwants⟩ := h.live_of_reading hphase
      refine
        { table := h.table
          read := ?read
          calls := h.calls
          entries := h.entries
          latest := List.mem_concat_self
          order := h.order
          moments := h.moments_concat h.isInMode
          live := .inr ⟨hopened, hdue, hwants⟩ }
      show c.read ++ bs = _ ++ (c.run.buffer ++ bs)
      rw [h.read, List.append_assoc]
      rfl
  | handshake =>
      simp only [Recording.takeRead, Run.takeRead, hphase]
      exact h.become (c.run.rests_closed _ _)
  | closed result =>
      simp only [Recording.takeRead, Run.takeRead, hphase]
      exact h.become (.refl c.run)

theorem Sound.takeReads (h : c.Sound) (reads : List Bytes) :
    (reads.foldl Recording.takeRead c).Sound := by
  induction reads generalizing c with
  | nil => exact h
  | cons bs reads ih => exact ih (h.takeRead bs)

theorem Sound.takeStep (h : c.Sound) (step : ClientStep) : (c.takeStep step).Sound := by
  have hturned : Run.Rests c.run { c.run with wire := c.run.wire.turn } := c.run.rests_wire _
  cases step with
  | send bs => exact (h.become hturned).takeReads _
  | wait milliseconds => exact h.become (hturned.trans (Run.rests_elapse _ milliseconds))
  | readError kind => exact h.become (hturned.trans (Run.rests_readFailed _ kind))
  | writeError kind => exact h.become (hturned.trans (Run.rests_wire _ _))
  | startTls handshake => exact h.become (hturned.trans (Run.rests_endHandshake _ handshake))

theorem Sound.through (h : c.Sound) (steps : List ClientStep) : (through steps c).Sound := by
  induction steps generalizing c with
  | nil => exact h
  | cons step steps ih =>
      rw [Recording.through]
      split
      next => exact h
      next => exact ih (h.takeStep step)

theorem sound_start {c : Connection α δ} (htable : c.table = .builtin)
    (hexpects : c.session.progress.expectsMessage = false) (hwants : c.session.wantsTls = false)
    (greetingError : Option IoKind) :
    Sound { run := Run.start c greetingError } := by
  have hrests := Run.rests_start c greetingError
  have hmode : (Run.start c greetingError).IsInMode := by
    rw [Run.IsInMode, hrests.decoder]
    exact Decoder.isDue_fresh _
  refine
    { table := hrests.table.trans htable
      read := hrests.buffer.symm
      calls := hrests.calls
      entries := by simp
      latest := List.mem_singleton_self _
      order := by simp
      moments := List.forall_mem_singleton.2 hmode
      live := .inr ⟨?opened, ?due, hrests.wantsTls.trans hwants⟩ }
  case opened =>
    show Decoder.Decoded.mk {} [] (.ok none) = Decoder.Decoded.mk (Run.start c _).decoder [] (.ok none)
    rw [hrests.decoder]
  case due =>
    rw [hrests.progress]
    simp [hexpects, DueAfter]

/-- The recording is that of a connection after all steps of a client. -/
structure Faithful (c : Connection α δ) (client : Client) (t : Recording α δ) : Prop
    extends t.Complete where
  /-- The recorded run becomes the run of the connection when the client sends nothing more. -/
  run : t.run.endOfInput = (Run.takeSteps client.steps (Run.start c client.greetingError)).2
  /-- The bytes were read as they were sent, and all of them unless the run is closed. -/
  sent : ∃ unread, sent client.steps = t.read ++ unread ∧ (unread = [] ∨ t.run.IsClosed)

end Recording

/-- In every run a message is answered if and only if the frame that was answered right before it was
a `DATA` that was accepted, and its bytes begin right behind the CRLF of that line.  A frame in
progress is of the kind that the session expects, also between two bytes of one read. -/
theorem message_follows_data [Authenticator α] [Handler δ] (settings : Settings) (auth : α)
    (delivery : δ) (hasTls : Bool) (remote : Option String) (place : Option Nat) (client : Client) :
    let c : Connection α δ :=
      { Connection.make settings .builtin auth delivery hasTls remote with place }
    let t := c.recorded client
    t.Faithful c client ∧
    (∀ before e later, t.entries = before ++ e :: later →
      (e.frame.kind = .message ↔ DueAfter before)) ∧
    (∀ before d e later, t.entries = before ++ d :: e :: later → e.frame.kind = .message →
      ∃ l rest, IsLine l ∧ d.used = l ++ crlf ∧ e.used ≠ [] ∧
        t.read = before.flatMap Entry.bytes ++ (l ++ crlf) ++ (e.used ++ rest)) ∧
    ∀ r ∈ t.moments, ∀ bs k,
      (Decoder.feedAll r.session.settings r.session.progress.expectsMessage bs
        r.decoder).decoder.kind = some k →
      k = Decoder.due r.session.progress.expectsMessage := by
  intro c t
  have htable : c.table = .builtin := by simp only [c, Connection.make]
  have hsound : t.Sound :=
    (Recording.sound_start htable rfl rfl client.greetingError).through client.steps
  refine ⟨?_, hsound.order, ?_, ?_⟩
  · refine ⟨hsound.toComplete, ?_, ?_⟩
    · rw [Run.snd_takeSteps]
      exact congrArg Run.endOfInput (Recording.run_through client.steps _)
    · exact Recording.hasRead_through client.steps { run := Run.start c client.greetingError }
  · intro before d e later hentries hmessage
    have hcut : t.entries = (before ++ [d]) ++ e :: later := by simp [hentries]
    have hopens : d.opensMessage :=
      (dueAfter_concat before d).1 ((hsound.order _ e later hcut).1 hmessage)
    have hd := hsound.entries d (by simp [hentries])
    have he := hsound.entries e (by simp [hentries])
    obtain ⟨l, hl, hused⟩ := hd.line (Event.kind_of_opensMessage hopens)
    refine ⟨l, e.dropped ++ later.flatMap Entry.bytes ++ t.opened ++ t.run.buffer, hl, hused, ?_, ?_⟩
    · intro hnil
      have hdecoded := he.decoded
      rw [hnil] at hdecoded
      cases hdecoded
    · rw [hsound.read, hentries]
      simp [Entry.bytes, hused, hd.dropped hopens]
  · intro r hr bs k hk
    exact (hsound.moments r hr).feedAll.isDue k hk

/-- `DATA` arrives in two reads, and the second one holds an empty message and a line. -/
example :
    let c : Connection Auth.Open (Delivery.Fanout Unit) :=
      .make {} .builtin {} { listeners := [.collector 1 .anyone], world := () } false none
    let client : Client :=
      { steps :=
          [.send (Text.encode "HELO a\r\nMAIL FROM:<a@b>\r\nRCPT TO:<c@d>\r\nDA"),
            .send (Text.encode "TA\r\n.\r\nNOOP\r\nQU")] }
    ((c.recorded client).entries.drop 3).map (fun e => (e.frame.kind, Text.decode e.used))
      = [(.line, "DATA\r\n"), (.message, ".\r\n"), (.line, "NOOP\r\n")] := by
  decide +kernel

end SmtpReceiver
