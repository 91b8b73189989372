import SmtpReceiver.Framing.Decoder

/-!
# What adding to a message does

There is one way for bytes to be held and two for them to be written, and a write
may fail.  `Flushed` and `Added` are these cases, and everything else about the
store of a message is read off them.  `Finished` is what the last byte of a frame
makes of it.

Where files can be made and written nothing fails.  A failure is one of files
(`Added.failure`), and leaves all bytes held that it was to write (`Added.held`).
-/

namespace SmtpReceiver

namespace SpillDirectory

variable {d : SpillDirectory}

theorem denied?_of_usable (h : d.usable = true) : d.denied? = none := by
  rw [usable, Bool.and_eq_true] at h
  exact Option.isNone_iff_eq_none.1 h.1

theorem fault?_of_usable (h : d.usable = true) (tries : Nat) : d.fault? tries = none := by
  rw [usable, Bool.and_eq_true, List.all_eq_true] at h
  rw [fault?, List.getD_eq_getElem?_getD]
  cases hwrite : d.writes[tries]? with
  | none => rfl
  | some write => exact Option.isNone_iff_eq_none.1 (h.2 write (List.mem_of_getElem? hwrite))

end SpillDirectory

namespace Framing

open Text (Bytes)

namespace Store

/-! ## More bytes held -/

theorem size_append_list (held : Array UInt8) (bs : Bytes) :
    (held ++ bs).size = held.size + bs.length := by
  rw [← Array.length_toList, Array.toList_appendList, List.length_append, Array.length_toList]

section hold

variable (bs : Bytes) (s : Store)

@[simp] theorem file_hold : (s.hold bs).file = s.file := rfl

@[simp] theorem size_held_hold : (s.hold bs).held.size = s.held.size + bs.length :=
  size_append_list s.held bs

@[simp] theorem content_hold : (s.hold bs).content = s.content ++ bs := by
  simp [Store.content, hold]

end hold

/-! ## One write -/

/-- What becomes of a store when all that it holds is written. -/
inductive Flushed (settings : Settings) (s : Store) : Option IoFailure × Store → Prop where
  /-- There is no file, or nothing to write. -/
  | idle : s.file = none ∨ s.held = #[] → Flushed settings s (none, s)
  | failed {content : Array UInt8} {fault : WriteFault} : s.file = some content → s.held ≠ #[] →
    settings.spillDirectory.fault? s.tries = some fault →
    Flushed settings s (some fault.failure.cause,
      { s with file := some (content ++ s.held.take fault.reaching), tries := s.tries + 1 })
  | moved {content : Array UInt8} : s.file = some content → s.held ≠ #[] →
    settings.spillDirectory.fault? s.tries = none →
    Flushed settings s (none,
      { s with
        held := #[]
        file := some (content ++ s.held)
        written := s.written + s.held.size
        tries := s.tries + 1 })

variable {settings : Settings} {s s' : Store} {r : Option IoFailure × Store} {bs : Bytes}
  {cause : IoFailure}

theorem flush_flushed (settings : Settings) (s : Store) : Flushed settings s (s.flush settings) := by
  unfold flush
  split
  next hfile => exact .idle (.inl hfile)
  next content hfile =>
    split
    next hempty => exact .idle (.inr (Array.isEmpty_iff.1 hempty))
    next hheld =>
      rw [Array.isEmpty_iff] at hheld
      split
      next fault hfault => exact .failed hfile hheld hfault
      next hfault => exact .moved hfile hheld hfault

namespace Flushed

theorem dropped (h : Flushed settings s r) : r.2.dropped = s.dropped := by
  cases h with
  | idle | failed | moved => rfl

theorem file_eq_none (h : Flushed settings s r) : r.2.file = none ↔ s.file = none := by
  cases h with
  | idle => exact Iff.rfl
  | failed hfile => exact iff_of_false nofun (hfile ▸ Option.some_ne_none _)
  | moved hfile => exact iff_of_false nofun (hfile ▸ Option.some_ne_none _)

/-- A write that fails leaves everything held. -/
theorem held (h : Flushed settings s (some cause, s')) : s'.held = s.held := by
  cases h with
  | failed => rfl

/-- A write that does not fail leaves nothing held, if there is a file. -/
theorem held_eq_empty (h : Flushed settings s (none, s')) (hfile : s.file ≠ none) :
    s'.held = #[] := by
  cases h with
  | idle hidle => exact hidle.resolve_left hfile
  | moved => rfl

theorem failure (h : Flushed settings s (some cause, s')) :
    ∃ failure : FileFailure, cause = failure.cause := by
  cases h with
  | failed => exact ⟨_, rfl⟩

/-- A write that does not fail only moves bytes. -/
theorem content (h : Flushed settings s (none, s')) : s'.content = s.content := by
  cases h with
  | idle => rfl
  | moved hfile => simp [Store.content, hfile]

/-- A write that does not fail is counted in full. -/
theorem written (h : Flushed settings s (none, s'))
    (hwritten : s.written = (s.file.getD #[]).size) :
    s'.written = (s'.file.getD #[]).size := by
  cases h with
  | idle => exact hwritten
  | moved hfile => simp [hwritten, hfile]

theorem result_of_usable (husable : settings.spillDirectory.usable = true)
    (h : Flushed settings s r) : r.1 = none := by
  cases h with
  | idle | moved => rfl
  | failed _ _ hfault => rw [SpillDirectory.fault?_of_usable husable] at hfault; cases hfault

end Flushed

/-! ## More bytes of a message -/

/-- What becomes of a store that holds more bytes of a message. -/
inductive Added (settings : Settings) (s : Store) : Option IoFailure × Store → Prop where
  /-- There are too few bytes for a write. -/
  | kept : (s.file = none → s.held.size ≤ settings.spillThreshold) →
    (s.file ≠ none → s.held.size < min settings.spillThreshold spillBatch) →
    Added settings s (none, s)
  | batched {r : Option IoFailure × Store} : s.file ≠ none →
    min settings.spillThreshold spillBatch ≤ s.held.size → Flushed settings s r → Added settings s r
  /-- No file can be made. -/
  | denied {failure : FileFailure} : s.file = none → settings.spillThreshold < s.held.size →
    settings.spillDirectory.denied? = some failure → Added settings s (some failure.cause, s)
  | opened {r : Option IoFailure × Store} : s.file = none → settings.spillThreshold < s.held.size →
    settings.spillDirectory.denied? = none → Flushed settings s.openFile r → Added settings s r

theorem addMessageBytes_added (settings : Settings) (bs : Bytes) (s : Store) :
    Added settings (s.hold bs) (s.addMessageBytes settings bs) := by
  simp only [addMessageBytes]
  split
  next content hfile =>
    have hsome : (s.hold bs).file ≠ none := by rw [hfile]; exact Option.some_ne_none content
    split
    next hbatch => exact .batched hsome hbatch (flush_flushed settings _)
    next hbatch => exact .kept (fun hnone => absurd hnone hsome) fun _ => Nat.lt_of_not_le hbatch
  next hfile =>
    split
    next hfull =>
      split
      next failure hdenied => exact .denied hfile hfull hdenied
      next hdenied => exact .opened hfile hfull hdenied (flush_flushed settings _)
    next hroom => exact .kept (fun _ => Nat.le_of_not_lt hroom) fun hsome => absurd hfile hsome

namespace Added

/-- A failure leaves everything held. -/
theorem held (h : Added settings s (some cause, s')) : s'.held = s.held := by
  cases h with
  | denied => rfl
  | batched _ _ hflushed => exact hflushed.held
  | opened _ _ _ hflushed => exact hflushed.held

/-- A failure is one of files. -/
theorem failure (h : Added settings s (some cause, s')) :
    ∃ failure : FileFailure, cause = failure.cause := by
  cases h with
  | denied => exact ⟨_, rfl⟩
  | batched _ _ hflushed => exact hflushed.failure
  | opened _ _ _ hflushed => exact hflushed.failure

theorem content (h : Added settings s (none, s')) : s'.content = s.content := by
  cases h with
  | kept => rfl
  | batched _ _ hflushed => exact hflushed.content
  | opened hfile _ _ hflushed => rw [hflushed.content, Store.content, Store.content, hfile]; rfl

theorem written (h : Added settings s (none, s'))
    (hwritten : s.written = (s.file.getD #[]).size) :
    s'.written = (s'.file.getD #[]).size := by
  cases h with
  | kept => exact hwritten
  | batched _ _ hflushed => exact hflushed.written hwritten
  | opened hfile _ _ hflushed =>
      rw [hfile] at hwritten
      exact hflushed.written hwritten

theorem result_of_usable (husable : settings.spillDirectory.usable = true)
    (h : Added settings s r) : r.1 = none := by
  cases h with
  | kept => rfl
  | batched _ _ hflushed => exact hflushed.result_of_usable husable
  | denied _ _ hdenied => rw [SpillDirectory.denied?_of_usable husable] at hdenied; cases hdenied
  | opened _ _ _ hflushed => exact hflushed.result_of_usable husable

/-- A file is made exactly when what is held goes above the threshold. -/
theorem file_eq_none_iff (h : Added settings s r) :
    r.1 = none ∧ r.2.file = none ↔
      s.file = none ∧ s.held.size ≤ settings.spillThreshold := by
  cases h with
  | kept hroom _ => exact ⟨fun hfile => ⟨hfile.2, hroom hfile.2⟩, fun hfile => ⟨rfl, hfile.1⟩⟩
  | batched hfile _ hflushed =>
      exact iff_of_false (fun h => hfile (hflushed.file_eq_none.1 h.2)) fun h => hfile h.1
  | denied _ hfull _ =>
      exact iff_of_false (fun h => Option.some_ne_none _ h.1) fun h => Nat.not_le.2 hfull h.2
  | opened _ hfull _ hflushed =>
      exact iff_of_false (fun h => Option.some_ne_none _ (hflushed.file_eq_none.1 h.2))
        fun h => Nat.not_le.2 hfull h.2

/-- There is a file exactly if there was one, or what is held goes above the threshold. -/
theorem isSome_file (h : Added settings s (none, s')) :
    s'.file.isSome = (s.file.isSome || decide (settings.spillThreshold < s.held.size)) := by
  have hfile : s'.file = none ↔ s.file = none ∧ s.held.size ≤ settings.spillThreshold := by
    simpa using h.file_eq_none_iff
  rw [Bool.eq_iff_iff, Bool.or_eq_true, decide_eq_true_iff, Option.isSome_iff_ne_none,
    Option.isSome_iff_ne_none, ne_eq, hfile, Classical.not_and_iff_not_or_not, Nat.not_le]

end Added

/-- The failure to add bytes is one of files. -/
theorem failure_of_addMessageBytes (h : (s.addMessageBytes settings bs).1 = some cause) :
    ∃ failure : FileFailure, cause = failure.cause := by
  have hadded := addMessageBytes_added settings bs s
  generalize s.addMessageBytes settings bs = r at h hadded
  obtain ⟨cause?, s'⟩ := r
  cases h
  exact hadded.failure

/-- Where files can be made and written, bytes are added. -/
theorem exists_added (husable : settings.spillDirectory.usable = true) (bs : Bytes) (s : Store) :
    ∃ s', s.addMessageBytes settings bs = (none, s') ∧ Added settings (s.hold bs) (none, s') := by
  have hadded := addMessageBytes_added settings bs s
  have hresult := hadded.result_of_usable husable
  generalize s.addMessageBytes settings bs = r at hadded hresult ⊢
  obtain ⟨cause?, s'⟩ := r
  cases hresult
  exact ⟨s', rfl, hadded⟩

/-! ## A whole message -/

theorem message_of_memory (hfile : s.file = none) :
    s.message settings = .ok (.held s.held.toList) := by
  simp only [message, flush, hfile, storage]
  rfl

/-- A message is what is stored once everything is written, and if that fails there is none. -/
theorem message_cases (settings : Settings) (s : Store) :
    (∃ s', Flushed settings s (none, s') ∧ s.message settings = .ok ⟨s'.storage⟩) ∨
      ∃ (failure : FileFailure) (s' : Store), Flushed settings s (some failure.cause, s') ∧
        s.message settings = .error failure.cause := by
  have hflushed := flush_flushed settings s
  rw [message]
  generalize s.flush settings = r at hflushed ⊢
  obtain ⟨cause?, s'⟩ := r
  cases cause? with
  | none => exact .inl ⟨s', hflushed, rfl⟩
  | some cause =>
      obtain ⟨failure, rfl⟩ := hflushed.failure
      exact .inr ⟨failure, s', hflushed, rfl⟩

end Store

/-! ## The end of a frame -/

namespace Decoder

/-- What the last byte of a frame leaves and gives. -/
inductive Finished (settings : Settings) (d : Decoder) : Kind → Decoder × Except Failure Frame → Prop
    where
  | lineTooLong : d.store.dropped ≠ none →
    Finished settings d .line ({}, .error (.lineTooLong d.store.lineLength))
  | line : d.store.dropped = none →
    Finished settings d .line ({}, .ok (.line (settings.charset.decode d.store.held.toList)))
  /-- The CRLF of the last line cannot be added. -/
  | notClosed {cause : IoFailure} {store : Store} : d.close settings = (some cause, store) →
    Finished settings d .message ({ d with kind := none, phantom := 0, store }, .error (.io cause))
  /-- The rest of the message cannot be written. -/
  | notWritten {cause : IoFailure} {store : Store} : d.close settings = (none, store) →
    store.message settings = .error cause → Finished settings d .message ({}, .error (.io cause))
  | message {store : Store} {m : Message} : d.close settings = (none, store) →
    store.message settings = .ok m → Finished settings d .message ({}, .ok (.message m))

variable {settings : Settings} {d d' : Decoder} {k : Kind} {r : Decoder × Except Failure Frame}

theorem finish_finished (settings : Settings) (k : Kind) (d : Decoder) :
    Finished settings d k (d.finish settings k) := by
  cases k with
  | line =>
      simp only [finish, finishLine]
      split
      next n hdropped => exact .lineTooLong (by rw [hdropped]; exact Option.some_ne_none n)
      next hdropped => exact .line hdropped
  | message =>
      simp only [finish, finishMessage]
      split
      next cause store hclose => exact .notClosed hclose
      next store hclose =>
        split
        next cause hmessage => exact .notWritten hclose hmessage
        next m hmessage => exact .message hclose hmessage

namespace Finished

theorem kind_eq_none (h : Finished settings d k r) : r.1.kind = none := by
  cases h with
  | lineTooLong | line | notClosed | notWritten | message => rfl

theorem eq_fresh {frame : Frame} (h : Finished settings d k (d', .ok frame)) : d' = {} := by
  cases h with
  | line | message => rfl

end Finished

end Decoder

end Framing

end SmtpReceiver
