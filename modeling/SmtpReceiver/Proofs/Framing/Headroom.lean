import SmtpReceiver.Proofs.Framing.Isolation

/-!
# How much room a message has left

Before bytes are decoded, the decoder can be asked whether so many bytes could go to
a spill file.  It counts what it holds in memory and the bytes to come.  But some bytes
it has been given are in neither: they are *held back* in the match, and are written
once the match breaks or the message ends.  At most three bytes are held back.

The `load` of a decoder counts them too.  A byte adds at most one to it
(`load_advance_le`), and the store never holds more than the load.  So no file is
touched as long as the load and the bytes to come are within the threshold
(`inMemory_decode`).  Bytes that match nothing have all that was held back written
(`room_of_plain`), so nothing less will do (`maySpill_of_held_back`).

The question as it stands counts too little.  Its answer can be no, and the next byte
has a spill file made (`maySpill_overlooks_held_back`).
-/

namespace SmtpReceiver.Framing

open Text (Bytes)

namespace Store

/-- Bytes are added in memory exactly if there is no file yet, and room for them. -/
theorem addMessageBytes_in_memory (settings : Settings) (bs : Bytes) (s : Store) :
    (s.addMessageBytes settings bs).1 = none ∧ (s.addMessageBytes settings bs).2.file = none ↔
      s.file = none ∧ s.held.size + bs.length ≤ settings.spillThreshold := by
  rw [(addMessageBytes_added settings bs s).file_eq_none_iff, file_hold, size_held_hold]

theorem addMessageBytes_of_room {settings : Settings} {bs : Bytes} {s : Store}
    (hfile : s.file = none) (hroom : s.held.size + bs.length ≤ settings.spillThreshold) :
    s.addMessageBytes settings bs = (none, { s with held := s.held ++ bs }) := by
  have hnot : ¬ settings.spillThreshold < (s.hold bs).held.size := by
    rw [size_held_hold]
    exact Nat.not_lt.2 hroom
  have hadded := addMessageBytes_added settings bs s
  generalize s.addMessageBytes settings bs = r at hadded
  cases hadded with
  | kept => rfl
  | batched hsome => exact absurd hfile hsome
  | denied _ hfull | opened _ hfull => exact absurd hfull hnot

end Store

namespace Decoder

variable {settings : Settings} {expectMessage : Bool} {k : Kind} {d : Decoder}

/-! ## What is held back -/

/-- How many bytes of the match are written if it breaks.  Phantom bytes are not. -/
def heldBack (d : Decoder) : Nat :=
  match d.kind with
  | some k => (k.pendingBytes d.matched).length - d.phantom
  | none => 0

/-- How many bytes of the frame there are in memory or in the match. -/
def load (d : Decoder) : Nat := d.store.held.size + d.heldBack

/-- The match is within the delimiter, and phantom bytes are in the match. -/
structure InBounds (d : Decoder) : Prop where
  matched : ∀ k, d.kind = some k → d.matched < k.delimiter.length
  phantom : ∀ k, d.kind = some k → d.phantom ≤ (k.pendingBytes d.matched).length

/-- A call that took a decoder to this one and gave this result has touched no spill file. -/
structure InMemory (before d : Decoder) (result : Except Failure (Option Frame)) : Prop where
  /-- A message in progress has no file. -/
  file : d.kind = some .message → d.store.file = none
  /-- No file was made or written.  One may have been dropped. -/
  untouched : d.store.file = none ∨ d.store.file = before.store.file
  failure : ∀ cause, result ≠ .error (.io cause)
  message : ∀ m, result = .ok (some (.message m)) → m.spilled = false

/-- A call that ends no frame need only have made no file. -/
theorem inMemory_open {before : Decoder} (hfile : d.store.file = none) :
    InMemory before d (.ok none) where
  file _ := hfile
  untouched := .inl hfile
  failure cause h := by cases h
  message m h := by cases h

theorem InMemory.trans {before d' : Decoder} {result result' : Except Failure (Option Frame)}
    (h : InMemory before d result) (h' : InMemory d d' result') : InMemory before d' result' where
  file := h'.file
  untouched := h'.untouched.elim .inl fun hsame => hsame.symm ▸ h.untouched
  failure := h'.failure
  message := h'.message

theorem heldBack_le (h : d.InBounds) : d.heldBack ≤ 3 := by
  have hpending : ∀ k : Kind, ∀ matched < k.delimiter.length,
      (k.pendingBytes matched).length ≤ 3 := by
    intro k
    cases k <;> decide
  unfold heldBack
  split
  next k hk => exact Nat.le_trans (Nat.sub_le _ _) (hpending k _ (h.matched k hk))
  next => exact Nat.zero_le _

/-! ## Bytes of a frame -/

/-- Phantom bytes are passed over, and the others are added. -/
theorem emit_drop (k : Kind) : ∀ (bs : Bytes) (d : Decoder),
    emit settings k bs d
      = emit settings k (bs.drop d.phantom) { d with phantom := d.phantom - bs.length }
  | [], d => by rw [List.drop_nil]; rfl
  | b :: bs, d => by
      cases hphantom : d.phantom with
      | zero =>
          rw [List.drop_zero, Nat.zero_sub, ← hphantom]
      | succ n =>
          rw [List.drop_succ_cons, List.length_cons, Nat.add_sub_add_right, emit, hphantom,
            if_pos (Nat.succ_pos n), emit_drop k bs]
          rfl

/-- A failure comes from a byte behind the phantom ones. -/
theorem phantom_lt_of_failure {bs : Bytes} (h : (emit settings k bs d).1 ≠ none) :
    d.phantom < bs.length := by
  by_contra hle
  rw [emit_drop, List.drop_of_length_le (Nat.le_of_not_lt hle)] at h
  exact h rfl

/-- The bytes of a line never fail, and never go to a file. -/
theorem emit_line (settings : Settings) : ∀ (bs : Bytes) (d : Decoder),
    (emit settings .line bs d).1 = none ∧ (emit settings .line bs d).2.store.file = d.store.file
  | [], d => ⟨rfl, rfl⟩
  | b :: bs, d => by
      have hfile : (d.store.addLineByte settings.maxLine b).file = d.store.file := by
        unfold Store.addLineByte
        split
        next => rfl
        next => split <;> rfl
      unfold emit
      split
      next => exact emit_line settings bs _
      next =>
        obtain ⟨hnone, hkept⟩ :=
          emit_line settings bs { d with store := d.store.addLineByte settings.maxLine b }
        exact ⟨hnone, hkept.trans hfile⟩

theorem emit_of_room {bs : Bytes} : ∀ {d : Decoder}, d.phantom = 0 → d.store.file = none →
    d.store.held.size + bs.length ≤ settings.spillThreshold →
      emit settings .message bs d
        = (none, { d with store := { d.store with held := d.store.held ++ bs } }) := by
  induction bs with
  | nil => intro d _ _ _; simp [emit]
  | cons b bs ih =>
      intro d hphantom hfile hroom
      rw [List.length_cons] at hroom
      have hone : d.store.held.size + [b].length ≤ settings.spillThreshold := by
        rw [List.length_singleton]
        omega
      have hnot : ¬ 0 < d.phantom := by omega
      have hsize : (d.store.held ++ [b]).size + bs.length ≤ settings.spillThreshold := by
        rw [Store.size_append_list, List.length_singleton]
        omega
      simp only [emit, if_neg hnot, write, Store.addMessageBytes_of_room hfile hone]
      rw [ih (d := { d with store := { d.store with held := d.store.held ++ [b] } }) hphantom hfile
        hsize]
      simp

/-- Bytes of a message that went to no file had room. -/
theorem room_of_emit {bs : Bytes} : ∀ {d : Decoder}, d.phantom = 0 →
    (emit settings .message bs d).1 = none → (emit settings .message bs d).2.store.file = none →
      d.store.file = none ∧
        (bs ≠ [] → d.store.held.size + bs.length ≤ settings.spillThreshold) := by
  induction bs with
  | nil => intro d _ _ hfile; exact ⟨hfile, fun h => absurd rfl h⟩
  | cons b bs ih =>
      intro d hphantom hnone hfile
      have hnot : ¬ 0 < d.phantom := by omega
      have hmemory := Store.addMessageBytes_in_memory settings [b] d.store
      simp only [emit, if_neg hnot, write] at hnone hfile
      cases hadd : d.store.addMessageBytes settings [b] with
      | mk cause? store =>
          rw [hadd] at hnone hfile hmemory
          cases cause? with
          | some cause => cases hnone
          | none =>
              obtain ⟨hstore, hmore⟩ := ih (d := { d with store }) hphantom hnone hfile
              obtain ⟨hempty, hone⟩ := hmemory.1 ⟨rfl, hstore⟩
              refine ⟨hempty, fun _ => ?_⟩
              rw [Store.addMessageBytes_of_room hempty hone] at hadd
              obtain rfl := (Prod.mk.inj hadd).2
              cases bs with
              | nil => exact hone
              | cons c bs =>
                  have hle := hmore (List.cons_ne_nil c bs)
                  rw [Store.size_append_list, List.length_singleton] at hle
                  rw [List.length_cons]
                  omega

/-! ## One byte -/

/-- The lengths of what is released and what is pending. -/
theorem length_settle {matched : Nat} {b : UInt8} (hm : matched < k.delimiter.length) :
    (settle k matched b).released.length + (k.pendingBytes (settle k matched b).matched).length
      = (k.pendingBytes matched).length + if k.dropsDot matched b then 0 else 1 := by
  have hconserves := congrArg List.length (settle_conserves (b := b) hm)
  rw [List.length_append, List.length_append] at hconserves
  rw [hconserves]
  split <;> rfl

/-- A decoder in no frame has nothing matched. -/
theorem inBounds_of_idle (hidle : d.kind = none) : d.InBounds where
  matched k hk := by rw [hidle] at hk; cases hk
  phantom k hk := by rw [hidle] at hk; cases hk

theorem inBounds_finish (k : Kind) (d : Decoder) : (d.finish settings k).1.InBounds :=
  inBounds_of_idle (finish_finished settings k d).kind_eq_none

/-- The last byte of a frame gives the frame or a failure. -/
theorem finish_ends (k : Kind) (d : Decoder) :
    (d.finish settings k).2.map some ≠ .ok none := by
  intro hnone
  cases hfinish : (d.finish settings k).2 with
  | ok frame => rw [hfinish] at hnone; cases hnone
  | error failure => rw [hfinish] at hnone; cases hnone

theorem InBounds.feedFrame (h : d.InBounds) (settings : Settings) (hk : d.kind = some k)
    (b : UInt8) : (d.feedFrame settings k b).1.InBounds := by
  have hm := h.matched k hk
  have hlength := length_settle (b := b) hm
  have hphantom := h.phantom k hk
  have hfailure (hne : (emit settings k (settle k d.matched b).released
      { d with matched := 0 }).1 ≠ none) :
      d.phantom < (settle k d.matched b).released.length :=
    phantom_lt_of_failure (d := { d with matched := 0 }) hne
  obtain ⟨store, hemit⟩ := emit_eq settings k (settle k d.matched b).released
    { d with matched := 0 }
  simp only [Decoder.feedFrame]
  generalize emit settings k (settle k d.matched b).released { d with matched := 0 } = r
    at hemit hfailure
  obtain ⟨cause?, d'⟩ := r
  obtain rfl : d' = _ := hemit
  cases cause? with
  | some cause =>
      have hlt := hfailure (Option.some_ne_none cause)
      refine ⟨?_, ?_⟩
      · intro k' hk'
        show 0 < k'.delimiter.length
        cases k' <;> decide
      · intro k' _
        show d.phantom - _ ≤ _
        omega
  | none =>
      dsimp only
      split
      next => exact inBounds_finish k _
      next hopen =>
        have hopen : (settle k d.matched b).complete = false := Bool.eq_false_iff.2 hopen
        refine ⟨?_, ?_⟩
        · intro k' hk'
          obtain rfl : k = k' := Option.some.inj (hk.symm.trans hk')
          exact settle_lt hm hopen
        · intro k' hk'
          obtain rfl : k = k' := Option.some.inj (hk.symm.trans hk')
          show d.phantom - _ ≤ (k.pendingBytes (settle k d.matched b).matched).length
          omega

/-- At the first byte of a message the match is the CRLF in front of it, which is phantom. -/
theorem inBounds_start (k : Kind) (d : Decoder) : (d.start k).InBounds := by
  cases k with
  | line =>
      refine ⟨?_, ?_⟩
      · rintro k ⟨⟩
        show 0 < Kind.line.delimiter.length
        decide
      · rintro k ⟨⟩
        exact Nat.zero_le _
  | message =>
      refine ⟨?_, ?_⟩
      · rintro k ⟨⟩
        show crlf.length < Kind.message.delimiter.length
        decide
      · rintro k ⟨⟩
        show crlf.length ≤ (Kind.message.pendingBytes crlf.length).length
        decide

/-- A byte belongs to the frame in progress, or to one that begins with it. -/
theorem feed_eq_feedFrame (h : d.InBounds) (settings : Settings) (expectMessage : Bool)
    (b : UInt8) :
    ∃ (d' : Decoder) (k : Kind), k = d.kind.getD (due expectMessage) ∧ d'.kind = some k ∧
      d'.InBounds ∧ d'.store = d.store ∧ d'.load = d.load ∧
      d.feed settings expectMessage b = d'.feedFrame settings k b := by
  cases hk : d.kind with
  | some k =>
      refine ⟨d, k, rfl, hk, h, rfl, rfl, ?_⟩
      simp only [feed, hk]
  | none =>
      refine ⟨d.start (due expectMessage), due expectMessage, rfl, ?_, inBounds_start _ d, ?_, ?_,
        ?_⟩
      · cases expectMessage <;> rfl
      · cases expectMessage <;> rfl
      · simp only [load, heldBack, hk]
        cases expectMessage <;> rfl
      · simp only [feed, hk]

theorem InBounds.feed (h : d.InBounds) (settings : Settings) (expectMessage : Bool) (b : UInt8) :
    (d.feed settings expectMessage b).1.InBounds := by
  obtain ⟨d', k, -, hk, h', -, -, hfeed⟩ := feed_eq_feedFrame h settings expectMessage b
  rw [hfeed]
  exact h'.feedFrame settings hk b

theorem kind_feedFrame_of_none (settings : Settings) (hk : d.kind = some k) (b : UInt8)
    (hnone : (d.feedFrame settings k b).2 = .ok none) :
    (d.feedFrame settings k b).1.kind = some k := by
  have hkind : (emit settings k (settle k d.matched b).released { d with matched := 0 }).2.kind
      = some k := (kind_emit settings k _ _).trans hk
  simp only [feedFrame] at hnone ⊢
  generalize emit settings k (settle k d.matched b).released { d with matched := 0 } = r
    at hkind hnone
  obtain ⟨cause?, d'⟩ := r
  cases cause? with
  | some cause => exact hkind
  | none =>
      dsimp only at hnone ⊢
      split at hnone
      next => exact absurd hnone (finish_ends k _)
      next hopen =>
        rw [if_neg hopen]
        exact hkind

/-- A frame that goes on is of the kind that was in progress or due. -/
theorem kind_feed_of_none (h : d.InBounds) (settings : Settings) (expectMessage : Bool) (b : UInt8)
    (hnone : (d.feed settings expectMessage b).2 = .ok none) :
    (d.feed settings expectMessage b).1.kind = some (d.kind.getD (due expectMessage)) := by
  obtain ⟨d', k, hkind, hk, -, -, -, hfeed⟩ :=
    feed_eq_feedFrame h settings expectMessage b
  rw [hfeed] at hnone ⊢
  rw [← hkind]
  exact kind_feedFrame_of_none settings hk b hnone

/-! ## One byte in memory -/

/-- The decoder when a byte of a message was taken and no file was needed. -/
def advance (b : UInt8) (d : Decoder) : Decoder :=
  let s := settle .message d.matched b
  { d with
    matched := s.matched
    phantom := d.phantom - s.released.length
    store := { d.store with held := d.store.held ++ s.released.drop d.phantom } }

/-- A byte adds one to the load, unless it is a dot that is dropped. -/
theorem load_advance (h : d.InBounds) (hk : d.kind = some .message) (b : UInt8) :
    (d.advance b).load = d.load + if Kind.message.dropsDot d.matched b then 0 else 1 := by
  have hlength := length_settle (b := b) (h.matched _ hk)
  have hphantom := h.phantom _ hk
  simp only [load, heldBack, advance, hk, Store.size_append_list, List.length_drop]
  omega

theorem load_advance_le (h : d.InBounds) (hk : d.kind = some .message) (b : UInt8) :
    (d.advance b).load ≤ d.load + 1 := by
  rw [load_advance h hk b]
  split <;> omega

theorem feedFrame_of_room (h : d.InBounds) (hk : d.kind = some .message)
    (hfile : d.store.file = none) (hroom : d.load + 1 ≤ settings.spillThreshold) (b : UInt8) :
    d.feedFrame settings .message b
      = if (settle .message d.matched b).complete then
          (((d.advance b).finish settings .message).1,
            ((d.advance b).finish settings .message).2.map some)
        else (d.advance b, .ok none) := by
  have hlength := length_settle (b := b) (h.matched _ hk)
  have hphantom := h.phantom _ hk
  simp only [load, heldBack, hk] at hroom
  have hemit : emit settings .message (settle .message d.matched b).released { d with matched := 0 }
      = (none, { d.advance b with matched := 0 }) := by
    rw [emit_drop]
    by_cases hall : (settle .message d.matched b).released.length ≤ d.phantom
    · have hdrop : (settle .message d.matched b).released.drop d.phantom = [] :=
        List.drop_of_length_le hall
      simp only [advance, hdrop, emit, Array.appendList_nil]
    · have hzero : d.phantom - (settle .message d.matched b).released.length = 0 := by omega
      refine emit_of_room hzero hfile ?_
      show d.store.held.size + ((settle .message d.matched b).released.drop d.phantom).length ≤ _
      rw [List.length_drop]
      split at hlength <;> omega
  simp only [feedFrame, hemit]
  rfl

/-- A message that ends in memory has had room for its last CRLF. -/
theorem inMemory_finish_message {before : Decoder} (hfile : d.store.file = none)
    (hroom : d.phantom = 0 → d.store.held.size + crlf.length ≤ settings.spillThreshold) :
    InMemory before (d.finish settings .message).1 ((d.finish settings .message).2.map some) := by
  obtain ⟨store, hclose, hnone⟩ : ∃ store, d.close settings = (none, store) ∧ store.file = none := by
    unfold close
    split
    next hphantom => exact ⟨_, Store.addMessageBytes_of_room hfile (hroom hphantom), hfile⟩
    next => exact ⟨_, rfl, hfile⟩
  have hmessage : store.message settings = .ok (.held store.held.toList) :=
    Store.message_of_memory hnone
  simp only [finish, finishMessage, hclose, hmessage]
  refine ⟨?_, .inl rfl, ?_, ?_⟩
  · rintro ⟨⟩
  · rintro cause ⟨⟩
  · rintro m ⟨⟩
    rfl

theorem inMemory_finish_line {before : Decoder} :
    InMemory before (d.finish settings .line).1 ((d.finish settings .line).2.map some) := by
  have hfinished := finish_finished settings .line d
  generalize d.finish settings .line = r at hfinished
  cases hfinished with
  | lineTooLong | line =>
      refine ⟨?_, .inl rfl, ?_, ?_⟩
      · rintro ⟨⟩
      · rintro cause ⟨⟩
      · rintro m ⟨⟩

theorem inMemory_feedFrame_line (hk : d.kind = some .line) (b : UInt8) :
    InMemory d (d.feedFrame settings .line b).1 (d.feedFrame settings .line b).2 := by
  obtain ⟨hnone, hfile⟩ := emit_line settings (settle .line d.matched b).released
    { d with matched := 0 }
  have hkind := kind_emit settings .line (settle .line d.matched b).released
    { d with matched := 0 }
  simp only [Decoder.feedFrame]
  generalize emit settings .line (settle .line d.matched b).released { d with matched := 0 } = r
    at hnone hfile hkind
  obtain ⟨cause?, d'⟩ := r
  obtain rfl : cause? = none := hnone
  dsimp only
  split
  next => exact inMemory_finish_line
  next =>
    refine ⟨fun hmessage => ?_, .inr hfile, ?_, ?_⟩
    · cases (hkind.trans hk).symm.trans hmessage
    · rintro cause ⟨⟩
    · rintro m ⟨⟩

theorem inMemory_feedFrame_message (h : d.InBounds) (hk : d.kind = some .message)
    (hfile : d.store.file = none) (hroom : d.load + 1 ≤ settings.spillThreshold) (b : UInt8) :
    InMemory d (d.feedFrame settings .message b).1 (d.feedFrame settings .message b).2 := by
  rw [feedFrame_of_room h hk hfile hroom]
  split
  next hcomplete =>
    refine inMemory_finish_message hfile fun hphantom => ?_
    -- the four bytes of the two CRLF are all in the load by now
    obtain ⟨-, -, hsettle⟩ := settle_of_complete (h.matched _ hk) hcomplete
    have hend : (d.advance b).matched = Kind.message.delimiter.length :=
      congrArg Settled.matched hsettle
    have hkind : (d.advance b).kind = some .message := hk
    have hfour : (d.advance b).load = (d.advance b).store.held.size + 4 := by
      simp only [load, heldBack, hkind, hend, hphantom]
      rfl
    have hload := load_advance_le h hk b
    have hcrlf : crlf.length = 2 := rfl
    omega
  next => exact inMemory_open hfile

/-- A byte that has room goes to no file, and adds at most one to the load. -/
theorem inMemory_feed (h : d.InBounds)
    (hroom : d.kind.getD (due expectMessage) = .message →
      d.store.file = none ∧ d.load + 1 ≤ settings.spillThreshold)
    (b : UInt8) :
    InMemory d (d.feed settings expectMessage b).1 (d.feed settings expectMessage b).2 ∧
      ((d.feed settings expectMessage b).2 = .ok none →
        d.kind.getD (due expectMessage) = .message →
          (d.feed settings expectMessage b).1.load ≤ d.load + 1) := by
  obtain ⟨d', k, hkind, hk, h', hstore, hload, hfeed⟩ :=
    feed_eq_feedFrame h settings expectMessage b
  have hbefore {d₁ : Decoder} {result : Except Failure (Option Frame)}
      (hmemory : InMemory d' d₁ result) : InMemory d d₁ result :=
    { hmemory with untouched := hstore ▸ hmemory.untouched }
  rw [hfeed, ← hkind, ← hload]
  rw [← hkind, ← hload, ← hstore] at hroom
  cases k with
  | line =>
      exact ⟨hbefore (inMemory_feedFrame_line hk b), fun _ hmessage => by cases hmessage⟩
  | message =>
      obtain ⟨hfile, hroom⟩ := hroom rfl
      refine ⟨hbefore (inMemory_feedFrame_message h' hk hfile hroom b), fun hnone _ => ?_⟩
      rw [feedFrame_of_room h' hk hfile hroom] at hnone ⊢
      split
      next hcomplete =>
        rw [if_pos hcomplete] at hnone
        exact absurd hnone (finish_ends .message _)
      next => exact load_advance_le h' hk b

/-! ## Many bytes in memory -/

theorem inMemory_feedAll : ∀ {src : Bytes} {d : Decoder}, d.InBounds →
    (d.kind.getD (due expectMessage) = .message →
      d.store.file = none ∧ d.load + src.length ≤ settings.spillThreshold) →
    InMemory d (feedAll settings expectMessage src d).decoder
      (feedAll settings expectMessage src d).result
  | [], d, _, hroom =>
      { file := fun hk => (hroom (congrArg (Option.getD · _) hk)).1
        untouched := .inr rfl
        failure := fun _ h => by cases h
        message := fun _ h => by cases h }
  | b :: src, d, h, hroom => by
      simp only [List.length_cons] at hroom
      have hone (hkind : d.kind.getD (due expectMessage) = .message) :
          d.store.file = none ∧ d.load + 1 ≤ settings.spillThreshold := by
        obtain ⟨hfile, hroom⟩ := hroom hkind
        exact ⟨hfile, by omega⟩
      obtain ⟨hmemory, hload⟩ := inMemory_feed h hone b
      have hbounds := h.feed settings expectMessage b
      have hkind := kind_feed_of_none h settings expectMessage b
      rw [feedAll_cons]
      split
      next d' hfeed =>
        rw [hfeed] at hmemory hload hbounds hkind
        refine hmemory.trans (inMemory_feedAll hbounds fun hmessage => ?_)
        rw [hkind rfl] at hmessage
        have hload := hload rfl hmessage
        obtain ⟨-, hroom⟩ := hroom hmessage
        refine ⟨hmemory.file ((hkind rfl).trans (congrArg some hmessage)), ?_⟩
        show d'.load + src.length ≤ settings.spillThreshold
        dsimp only at hload
        omega
      next d' result _ hfeed =>
        rw [hfeed] at hmemory
        exact hmemory

/-- No file is needed for bytes that the load leaves room for. -/
theorem inMemory_decode (h : d.InBounds) {src : Bytes}
    (hno : d.maySpill settings (src.length + d.heldBack) expectMessage = false) :
    InMemory d (d.decode settings expectMessage src).decoder
      (d.decode settings expectMessage src).result := by
  have hroom : d.kind.getD (due expectMessage) = .message →
      d.store.file = none ∧ d.load + src.length ≤ settings.spillThreshold := by
    intro hkind
    simp only [maySpill, hkind, beq_self_eq_true, Bool.true_and, Store.maySpill,
      Bool.or_eq_false_iff, Option.isSome_eq_false_iff, Option.isNone_iff_eq_none,
      decide_eq_false_iff_not] at hno
    obtain ⟨hfile, hle⟩ := hno
    refine ⟨hfile, ?_⟩
    unfold load
    omega
  rw [decode_decoder, decode_result]
  exact inMemory_feedAll h hroom

/-! ## Bytes that match nothing -/

/-- A byte that neither continues the match nor begins one. -/
def plain : UInt8 := 120

theorem settle_plain {matched : Nat} (hm : matched < k.delimiter.length) :
    settle k matched plain = ⟨k.pendingBytes matched ++ [plain], 0, false⟩ := by
  have hnot : ∀ k : Kind, ∀ matched < k.delimiter.length, k.delimiter[matched]? ≠ some plain := by
    intro k
    cases k <;> decide
  exact settle_broken_of_ne hm (hnot k matched hm) (by decide)

/-- Such a byte stays in memory only if there is room for it and for all that was held back. -/
theorem loads_feedFrame {before : Decoder} (h : d.InBounds) (hk : d.kind = some .message)
    (hmemory : InMemory before (d.feedFrame settings .message plain).1
      (d.feedFrame settings .message plain).2) :
    d.store.file = none ∧ d.load + 1 ≤ settings.spillThreshold ∧
      d.feedFrame settings .message plain = (d.advance plain, .ok none) ∧
      (d.advance plain).load = d.load + 1 := by
  have hsettle := settle_plain (h.matched _ hk)
  have hphantom := h.phantom _ hk
  have hkind := kind_emit settings .message (settle .message d.matched plain).released
    { d with matched := 0 }
  have hemit : (emit settings .message (settle .message d.matched plain).released
        { d with matched := 0 }).1 = none ∧
      (emit settings .message (settle .message d.matched plain).released
        { d with matched := 0 }).2.store.file = none := by
    simp only [feedFrame, hsettle] at hmemory hkind ⊢
    generalize emit settings .message _ { d with matched := 0 } = r at hmemory hkind
    obtain ⟨cause?, d'⟩ := r
    cases cause? with
    | some cause => exact absurd rfl (hmemory.failure cause)
    | none => exact ⟨rfl, hmemory.file (hkind.trans hk)⟩
  rw [emit_drop] at hemit
  have hlength : ((settle .message d.matched plain).released.drop d.phantom).length
      = d.heldBack + 1 := by
    simp only [hsettle, heldBack, hk, List.length_drop, List.length_append, List.length_singleton]
    omega
  have hzero : d.phantom - (settle .message d.matched plain).released.length = 0 := by
    rw [hsettle, List.length_append, List.length_singleton]
    omega
  obtain ⟨hfile, hroom⟩ := room_of_emit hzero hemit.1 hemit.2
  have hne : (settle .message d.matched plain).released.drop d.phantom ≠ [] := by
    rw [← List.length_pos_iff, hlength]
    omega
  have hload : d.load + 1 ≤ settings.spillThreshold := by
    have hroom := hroom hne
    rw [hlength] at hroom
    exact hroom
  have hstep := feedFrame_of_room h hk hfile hload plain
  have hadvance := load_advance h hk plain
  rw [hsettle] at hstep
  rw [if_neg fun hdrops : Kind.message.dropsDot d.matched plain => absurd hdrops.1 (by decide)]
    at hadvance
  exact ⟨hfile, hload, hstep, hadvance⟩

/-- So many such bytes stay in memory only if the load leaves room for them. -/
theorem room_of_plain {before : Decoder} : ∀ {n : Nat} {d : Decoder}, d.InBounds →
    d.kind.getD (due expectMessage) = .message →
    InMemory before (feedAll settings expectMessage (List.replicate n plain) d).decoder
      (feedAll settings expectMessage (List.replicate n plain) d).result →
    0 < n → d.store.file = none ∧ d.load + n ≤ settings.spillThreshold
  | 0, d, _, _, _ => fun h => absurd h (Nat.lt_irrefl 0)
  | n + 1, d, h, hkind, hmemory => fun _ => by
      obtain ⟨d', k, hk', hk, h', hstore, hload, hfeed⟩ :=
        feed_eq_feedFrame h settings expectMessage plain
      obtain rfl : k = .message := hk'.trans hkind
      rw [List.replicate_succ, feedAll_cons, hfeed] at hmemory
      rw [← hstore, ← hload]
      have hbounds := h'.feedFrame settings hk plain
      have hkept := kind_feedFrame_of_none settings hk plain
      have hone : InMemory before (d'.feedFrame settings .message plain).1
          (d'.feedFrame settings .message plain).2 := by
        generalize d'.feedFrame settings .message plain = r at hmemory hbounds hkept
        obtain ⟨d₁, result⟩ := r
        cases result with
        | error failure => exact hmemory
        | ok frame? =>
            cases frame? with
            | some frame => exact hmemory
            | none =>
                refine inMemory_open ?_
                rcases Nat.eq_zero_or_pos n with rfl | hn
                · exact hmemory.file (hkept rfl)
                · exact (room_of_plain hbounds (by rw [hkept rfl]; rfl) hmemory hn).1
      obtain ⟨hfile, hroom, hstep, hadvance⟩ := loads_feedFrame h' hk hone
      rw [hstep] at hmemory hbounds hkept
      refine ⟨hfile, ?_⟩
      rcases Nat.eq_zero_or_pos n with rfl | hn
      · exact hroom
      · obtain ⟨-, hmore⟩ := room_of_plain hbounds (by rw [hkept rfl]; rfl) hmemory hn
        dsimp only at hmore
        omega

/-- Where the load leaves no room, there are bytes that need a file. -/
theorem exists_not_inMemory (h : d.InBounds) {n : Nat} (hn : 0 < n)
    (hyes : d.maySpill settings (n + d.heldBack) expectMessage = true) :
    ∃ src : Bytes, src.length = n ∧
      ¬ InMemory d (d.decode settings expectMessage src).decoder
        (d.decode settings expectMessage src).result := by
  refine ⟨List.replicate n plain, List.length_replicate, fun hmemory => ?_⟩
  rw [decode_decoder, decode_result] at hmemory
  simp only [maySpill, Bool.and_eq_true, beq_iff_eq, Store.maySpill, Bool.or_eq_true,
    decide_eq_true_eq] at hyes
  obtain ⟨hkind, hfull⟩ := hyes
  obtain ⟨hfile, hroom⟩ := room_of_plain h hkind hmemory hn
  unfold load at hroom
  rcases hfull with hfull | hfull
  · rw [hfile] at hfull
    cases hfull
  · omega

theorem InBounds.feedAll : ∀ {src : Bytes} {d : Decoder}, d.InBounds →
    (Decoder.feedAll settings expectMessage src d).decoder.InBounds
  | [], _, h => h
  | b :: src, d, h => by
      have hfeed := h.feed settings expectMessage b
      rw [feedAll_cons]
      split
      next d' hd =>
        rw [hd] at hfeed
        exact hfeed.feedAll
      next d' result _ hd =>
        rw [hd] at hfeed
        exact hfeed

end Decoder

namespace InUse

variable {settings : Settings}

theorem inBounds_after (uses : List Use) : (after settings uses).decoder.InBounds := by
  induction uses using List.reverseRecOn with
  | nil => exact Decoder.inBounds_of_idle rfl
  | append_singleton uses use ih =>
      rw [after_concat]
      cases use with
      | maySpill => exact ih
      | reset => exact Decoder.inBounds_of_idle rfl
      | decode expectMessage src =>
          cases src with
          | nil => exact ih
          | cons b src =>
              show (Decoder.decode settings _ expectMessage (b :: src)).decoder.InBounds
              rw [Decoder.decode_decoder]
              exact ih.feedAll

end InUse

/-- Asked for the bytes to come and those held back, at most three, the decoder says no only if
decoding them touches no file.  Of as many bytes as it says yes for, some need a file. -/
theorem InUse.maySpill_of_held_back (settings : Settings) (uses : List Use) (expectMessage : Bool) :
    let d := (after settings uses).decoder
    d.heldBack ≤ 3 ∧
      (∀ src : Bytes, d.maySpill settings (src.length + d.heldBack) expectMessage = false →
        Decoder.InMemory d (d.decode settings expectMessage src).decoder
          (d.decode settings expectMessage src).result) ∧
      ∀ n, 0 < n → d.maySpill settings (n + d.heldBack) expectMessage = true →
        ∃ src : Bytes, src.length = n ∧
          ¬ Decoder.InMemory d (d.decode settings expectMessage src).decoder
            (d.decode settings expectMessage src).result := by
  intro d
  have h : d.InBounds := inBounds_after uses
  exact ⟨Decoder.heldBack_le h, fun _ hno => Decoder.inMemory_decode h hno,
    fun _ hn hyes => Decoder.exists_not_inMemory h hn hyes⟩

/-- With one byte in memory and a CRLF held back, five bytes are within a threshold of eight, and
six are not. -/
theorem InUse.maySpill_of_held_back_crlf :
    let settings : Settings := { spillThreshold := 8 }
    let d := (after settings [.decode true (Text.encode "a\r\n")]).decoder
    d.heldBack = 2 ∧
      Decoder.InMemory d (d.decode settings true (Text.encode "hello")).decoder
        (d.decode settings true (Text.encode "hello")).result ∧
      ∃ src : Bytes, src.length = 6 ∧
        ¬ Decoder.InMemory d (d.decode settings true src).decoder
          (d.decode settings true src).result := by
  intro settings d
  obtain ⟨-, hno, hyes⟩ := maySpill_of_held_back settings [.decode true (Text.encode "a\r\n")] true
  exact ⟨by decide +kernel, hno (Text.encode "hello") (by decide +kernel),
    hyes 6 (by decide) (by decide +kernel)⟩

/-- Two bytes are within the threshold.  But the CRLF that is held back comes with the next one, and
a file is made, or cannot be made. -/
theorem InUse.maySpill_overlooks_held_back :
    let settings : Settings := { spillThreshold := 2 }
    let nowhere : Settings := { settings with spillDirectory := .missing }
    let uses : List Use := [.decode true (Text.encode "a\r\n")]
    settings.fault? = none ∧ nowhere.fault? = none ∧
      (after settings uses).decoder.maySpill settings 1 true = false ∧
      ((after settings uses).decoder.decode settings true (Text.encode "b")).decoder.store.file
        ≠ none ∧
      (after nowhere uses).decoder.maySpill nowhere 1 true = false ∧
      ((after nowhere uses).decoder.decode nowhere true (Text.encode "b")).result
        = .error (.io noSpillFile) := by
  decide +kernel

end SmtpReceiver.Framing
