import SmtpReceiver.Proofs.Framing.Exact

/-!
# Frames do not leak into one another

A decoder `InUse` is given bytes, is asked whether bytes could spill, and is told
to drop its frame, in any order.  Any time it does something, files may go wrong
in another way.  It remembers what it gave when bytes were last given to it.

`Left` says what a call with bytes leaves behind.  A frame is in progress, or the
decoder is fresh again, or a message could not be closed: the CRLF in front of its
last dot was to be added, and no spill file could be made or a write to one failed.
In the last case the bytes of the message stay in the store although no frame is in
progress, with the file if there is one, and they come out with the next frame.

So a decoder in no frame goes on as a fresh one exactly if its last frame was not a
message that could not be closed (`goes_on_fresh_iff`).  What a fresh decoder makes
of a command line is then what any such decoder makes of it, also right after a line
above the limit (`decodes_to_first_crlf`).
-/

namespace SmtpReceiver

/-- The settings with spilled messages kept elsewhere. -/
def Settings.within (settings : Settings) (directory : SpillDirectory) : Settings :=
  { settings with spillDirectory := directory }

namespace Framing

open Text (Bytes)

/-- What is held comes out, or the writing of it fails. -/
theorem Store.message_ne_empty (settings : Settings) {s : Store} (hheld : s.held ≠ #[]) :
    s.message settings ≠ .ok (.held []) := by
  obtain ⟨s', hflushed, hmessage⟩ | ⟨failure, s', -, hmessage⟩ := message_cases settings s
  · rw [hmessage]
    cases hflushed with
    | idle hidle =>
        have hfile : s.file = none := hidle.resolve_right hheld
        have hne : s.held.toList ≠ [] := fun hnil => hheld (Array.toList_eq_nil_iff.1 hnil)
        simp [storage, hfile, Message.held, hne]
    | moved => simp [storage, Message.held]
  · rw [hmessage]
    rintro ⟨⟩

namespace Decoder

variable {settings : Settings} {k : Kind} {d : Decoder} {b : UInt8}

/-! ## How a call fails -/

/-- The failures of a decoder.  A line was above its limit, or files failed. -/
inductive Fails : Failure → Prop where
  | lineTooLong (length : Nat) : Fails (.lineTooLong length)
  | files (failure : FileFailure) : Fails (.io failure.cause)

theorem fails_emit (k : Kind) {bs : Bytes} {d : Decoder} {cause : IoFailure}
    (h : (emit settings k bs d).1 = some cause) : Fails (.io cause) := by
  induction bs generalizing d with
  | nil => cases h
  | cons b bs ih =>
      unfold emit at h
      split at h
      next => exact ih h
      next =>
        split at h
        next => exact ih h
        next failure d' hwrite =>
          cases h
          cases k with
          | line => cases hwrite
          | message =>
              obtain ⟨failure, rfl⟩ := Store.failure_of_addMessageBytes (congrArg Prod.fst hwrite)
              exact .files failure

/-- A message that cannot be closed keeps its last CRLF, and all that it held. -/
theorem failure_of_close {cause : IoFailure} {store : Store}
    (h : d.close settings = (some cause, store)) :
    (∃ failure : FileFailure, cause = failure.cause) ∧ store.held ≠ #[] := by
  unfold close at h
  split at h
  next =>
    have hadded := Store.addMessageBytes_added settings crlf d.store
    rw [h] at hadded
    refine ⟨hadded.failure, fun hempty => ?_⟩
    have hsize := Store.size_held_hold crlf d.store
    rw [← hadded.held, hempty] at hsize
    simp [crlf] at hsize
  next => cases h

theorem Finished.fails {d' : Decoder} {failure : Failure}
    (h : Finished settings d k (d', .error failure)) : Fails failure := by
  cases h with
  | lineTooLong => exact .lineTooLong _
  | notClosed hclose =>
      obtain ⟨⟨failure, rfl⟩, -⟩ := failure_of_close hclose
      exact .files failure
  | @notWritten _ store _ hmessage =>
      obtain ⟨_, -, hstored⟩ | ⟨failure, _, -, hfailed⟩ := store.message_cases settings
      · cases hmessage.symm.trans hstored
      · cases hmessage.symm.trans hfailed
        exact .files failure

theorem fails_feedFrame {failure : Failure} (h : (d.feedFrame settings k b).2 = .error failure) :
    Fails failure := by
  simp only [feedFrame] at h
  split at h
  next cause d' hemit =>
    cases h
    exact fails_emit k (congrArg Prod.fst hemit)
  next d' hemit =>
    split at h
    next =>
      have hfinished :=
        finish_finished settings k { d' with matched := (settle k d.matched b).matched }
      generalize { d' with matched := (settle k d.matched b).matched }.finish settings k = r
        at h hfinished
      obtain ⟨d₁, result⟩ := r
      cases result with
      | ok frame => cases h
      | error failure' =>
          cases h
          exact hfinished.fails
    next => cases h

theorem fails_feed {expectMessage : Bool} {failure : Failure}
    (h : (d.feed settings expectMessage b).2 = .error failure) : Fails failure := by
  unfold feed at h
  split at h
  next => exact fails_feedFrame h
  next => exact fails_feedFrame h

theorem fails_decode {expectMessage : Bool} {src : Bytes} {failure : Failure}
    (h : (d.decode settings expectMessage src).result = .error failure) : Fails failure := by
  rw [decode_result] at h
  induction src generalizing d with
  | nil => cases h
  | cons b src ih =>
      rw [feedAll_cons] at h
      split at h
      next => exact ih h
      next d' result _ hfeed =>
        obtain rfl : result = .error failure := h
        exact fails_feed (congrArg Prod.snd hfeed)

/-! ## A message that cannot be closed -/

/-- A byte is the last one of a message that cannot be closed. -/
structure ClosingFails (settings : Settings) (d : Decoder) (b : UInt8) : Prop where
  kind : d.kind = some .message
  /-- All of the delimiter is matched but the last byte. -/
  matched : d.matched + 1 = Kind.message.delimiter.length
  last : b = lf
  /-- The CRLF in front of the dot cannot be added. -/
  failure : (d.close settings).1 ≠ none

instance (settings : Settings) (d : Decoder) (b : UInt8) : Decidable (d.ClosingFails settings b) :=
  decidable_of_iff
    (d.kind = some .message ∧ d.matched + 1 = Kind.message.delimiter.length ∧ b = lf ∧
      (d.close settings).1 ≠ none)
    ⟨fun ⟨hkind, hmatched, hlast, hfailure⟩ => ⟨hkind, hmatched, hlast, hfailure⟩,
      fun h => ⟨h.kind, h.matched, h.last, h.failure⟩⟩

/-- Whether the frame that these bytes go on with, or begin, is a message that ends among them and
cannot be closed. -/
def closingFails (settings : Settings) (expectMessage : Bool) : Bytes → Decoder → Bool
  | [], _ => false
  | b :: bs, d =>
    decide (d.ClosingFails settings b) ||
      match d.feed settings expectMessage b with
      | (d, .ok none) => closingFails settings expectMessage bs d
      | _ => false

theorem ClosingFails.complete (h : d.ClosingFails settings b) :
    (settle .message d.matched b).complete = true := by
  have hmatched : d.matched = 4 := Nat.succ.inj h.matched
  rw [hmatched, h.last]
  decide

/-! ## What a call leaves -/

/-- What is left in a decoder by a call that gave this.  Whether a message could not be closed is
`failed`. -/
inductive Left (failed : Prop) : Decoder → Except Failure (Option Frame) → Prop where
  /-- A frame is in progress. -/
  | inFrame {d : Decoder} {k : Kind} (result : Except Failure (Option Frame)) : ¬ failed →
    d.kind = some k → d.matched < k.delimiter.length → Left failed d result
  /-- Nothing is left. -/
  | fresh {result : Except Failure (Option Frame)} : ¬ failed → Left failed {} result
  /-- The bytes of a message are left. -/
  | spoilt {d : Decoder} (failure : FileFailure) : failed → d.kind = none → d.store.held ≠ #[] →
    Left failed d (.error (.io failure.cause))

namespace Left

variable {failed : Prop} {result : Except Failure (Option Frame)}

theorem matched_lt (h : Left failed d result) (hk : d.kind = some k) :
    d.matched < k.delimiter.length := by
  cases h with
  | inFrame _ _ hkind hm =>
      obtain rfl := Option.some.inj (hkind.symm.trans hk)
      exact hm
  | fresh => cases hk
  | spoilt _ _ hidle => rw [hidle] at hk; cases hk

theorem not_failed {frame? : Option Frame} (h : Left failed d (.ok frame?)) : ¬ failed := by
  cases h with
  | inFrame _ hnot | fresh hnot => exact hnot

/-- A decoder in no frame is a fresh one, unless a message could not be closed. -/
theorem eq_fresh (h : Left failed d result) (hidle : d.inFrame = false) (hnot : ¬ failed) :
    d = {} := by
  cases h with
  | inFrame _ _ hkind => rw [Decoder.inFrame, hkind] at hidle; cases hidle
  | fresh => rfl
  | spoilt _ hfailed => exact absurd hfailed hnot

/-- That a message could not be closed is told, and bytes are held in no frame. -/
theorem of_failed (h : Left failed d result) (hfailed : failed) :
    (∃ failure : FileFailure, result = .error (.io failure.cause)) ∧
      d.kind = none ∧ d.store.held ≠ #[] := by
  cases h with
  | inFrame _ hnot | fresh hnot => exact absurd hfailed hnot
  | spoilt failure _ hidle hheld => exact ⟨⟨failure, rfl⟩, hidle, hheld⟩

end Left

theorem Finished.left {failed : Prop} {r : Decoder × Except Failure Frame}
    (h : Finished settings d k r)
    (hfailed : failed ↔ k = .message ∧ (d.close settings).1 ≠ none) :
    Left failed r.1 (r.2.map some) := by
  rw [hfailed]
  cases h with
  | lineTooLong | line => exact .fresh fun h => Kind.noConfusion h.1
  | notClosed hclose =>
      obtain ⟨⟨failure, rfl⟩, hheld⟩ := failure_of_close hclose
      exact .spoilt failure ⟨rfl, by rw [hclose]; exact Option.some_ne_none _⟩ rfl hheld
  | notWritten hclose _ => exact .fresh fun h => h.2 (by rw [hclose])
  | message hclose _ => exact .fresh fun h => h.2 (by rw [hclose])

theorem left_feedFrame (settings : Settings) (hk : d.kind = some k)
    (hm : d.matched < k.delimiter.length) (b : UInt8) :
    Left (d.ClosingFails settings b) (d.feedFrame settings k b).1 (d.feedFrame settings k b).2 := by
  cases hcomplete : (settle k d.matched b).complete with
  | true =>
      obtain ⟨hlast, hnext, hsettle⟩ := settle_of_complete hm hcomplete
      simp only [feedFrame, hsettle, emit]
      refine (finish_finished settings k _).left ⟨fun h => ?_, fun h => ?_⟩
      · exact ⟨Option.some.inj (hk.symm.trans h.kind), h.failure⟩
      · obtain ⟨rfl, hfailure⟩ := h
        have hmatched : d.matched = 4 := Nat.succ.inj hlast
        rw [hmatched] at hnext
        exact ⟨hk, hlast, (Option.some.inj hnext).symm, hfailure⟩
  | false =>
      have hnot : ¬ d.ClosingFails settings b := fun h => by
        obtain rfl := Option.some.inj (hk.symm.trans h.kind)
        rw [h.complete] at hcomplete
        cases hcomplete
      obtain ⟨store, hemit⟩ := emit_eq settings k (settle k d.matched b).released
        { d with matched := 0 }
      simp only [feedFrame, hcomplete]
      generalize emit settings k (settle k d.matched b).released { d with matched := 0 } = r
        at hemit
      obtain ⟨cause?, d'⟩ := r
      obtain rfl : d' = _ := hemit
      cases cause? with
      | some cause => exact .inFrame _ hnot hk (Nat.zero_lt_of_lt hm)
      | none => exact .inFrame _ hnot hk (settle_lt hm hcomplete)

theorem left_feed (settings : Settings) (hm : ∀ k, d.kind = some k → d.matched < k.delimiter.length)
    (expectMessage : Bool) (b : UInt8) :
    Left (d.ClosingFails settings b) (d.feed settings expectMessage b).1
      (d.feed settings expectMessage b).2 := by
  unfold feed
  split
  next k hk => exact left_feedFrame settings hk (hm k hk) b
  next hk =>
    -- the first byte of a message does not end it
    have hnot : ¬ d.ClosingFails settings b := fun h => by cases hk.symm.trans h.kind
    have hstart : ¬ (d.start (due expectMessage)).ClosingFails settings b := fun h => by
      cases expectMessage with
      | true => cases h.matched
      | false => cases h.kind
    have hkind : (d.start (due expectMessage)).kind = some (due expectMessage) := by
      cases expectMessage <;> rfl
    have hmatched :
        (d.start (due expectMessage)).matched < (due expectMessage).delimiter.length := by
      cases expectMessage with
      | true => show 2 < 5; decide
      | false => show 0 < 2; decide
    have hfeed := left_feedFrame settings hkind hmatched b
    rwa [show d.ClosingFails settings b ↔ (d.start (due expectMessage)).ClosingFails settings b from
      iff_of_false hnot hstart]

theorem left_feedAll (settings : Settings) (expectMessage : Bool) : ∀ {src : Bytes} {d : Decoder},
    (∀ k, d.kind = some k → d.matched < k.delimiter.length) → src ≠ [] →
      Left (closingFails settings expectMessage src d = true)
        (feedAll settings expectMessage src d).decoder (feedAll settings expectMessage src d).result
  | [], d, _, hne => absurd rfl hne
  | b :: src, d, hm, _ => by
      have hfeed := left_feed settings hm expectMessage b
      rw [feedAll_cons, closingFails, Bool.or_eq_true, decide_eq_true_iff]
      generalize d.feed settings expectMessage b = r at hfeed
      obtain ⟨d', result⟩ := r
      cases result with
      | error failure => simpa using hfeed
      | ok frame? =>
          cases frame? with
          | some frame => simpa using hfeed
          | none =>
              cases src with
              | nil => simpa [closingFails, feedAll] using hfeed
              | cons c src =>
                  have hrest := left_feedAll settings expectMessage (fun k hk => hfeed.matched_lt hk)
                    (List.cons_ne_nil c src)
                  simpa [hfeed.not_failed] using hrest

/-- Whatever a decoder holds, a call that is given a byte takes it to one of the three. -/
theorem left_decode (settings : Settings)
    (hm : ∀ k, d.kind = some k → d.matched < k.delimiter.length) (expectMessage : Bool) {src : Bytes}
    (hne : src ≠ []) :
    Left (closingFails settings expectMessage src d = true)
      (d.decode settings expectMessage src).decoder
      (d.decode settings expectMessage src).result := by
  rw [decode_decoder, decode_result]
  exact left_feedAll settings expectMessage hm hne

/-- What is left of a message comes out with the next one, even if that is empty. -/
theorem decode_dot_of_idle (settings : Settings) (hidle : d.kind = none) :
    (d.decode settings true ([dot] ++ crlf)).result
      = ((d.store.message settings).mapError Failure.io).map fun m => some (.message m) := by
  obtain ⟨kind, matched, phantom, store⟩ := d
  obtain rfl : kind = none := hidle
  rw [decode_result]
  have hfeed : feedAll settings true ([dot] ++ crlf) ⟨none, matched, phantom, store⟩
      = feedAll settings true [lf] ⟨some .message, 4, 2, store⟩ := rfl
  have hlast : feed settings ⟨some .message, 4, 2, store⟩ true lf
      = ((finishMessage settings ⟨some .message, 5, 2, store⟩).1,
          (finishMessage settings ⟨some .message, 5, 2, store⟩).2.map some) := rfl
  have hclose : close settings ⟨some .message, 5, 2, store⟩ = (none, store) := rfl
  rw [hfeed, feedAll_cons, hlast]
  simp only [finishMessage, hclose]
  cases store.message settings with
  | error cause => rfl
  | ok m => rfl

end Decoder

/-! ## Decoders in use -/

/-- One use of a decoder. -/
inductive Use where
  /-- Bytes are given to it, when this kind of frame is due. -/
  | decode (expectMessage : Bool) (src : Bytes)
  /-- It is asked whether so many more bytes could go to a spill file. -/
  | maySpill (incoming : Nat) (expectMessage : Bool)
  /-- It is told to drop the frame in progress. -/
  | reset

/-- A decoder, and what it gave when bytes were last given to it. -/
structure InUse where
  decoder : Decoder := {}
  last : Except Failure (Option Frame) := .ok none
  /-- Whether a message ended then that could not be closed. -/
  closingFailed : Bool := false

namespace InUse

def step (settings : Settings) (u : InUse) : Use → InUse
  | .decode _ [] => u
  | .decode expectMessage (b :: src) =>
    let r := u.decoder.decode settings expectMessage (b :: src)
    ⟨r.decoder, r.result, u.decoder.closingFails settings expectMessage (b :: src)⟩
  | .maySpill .. => u
  | .reset => { decoder := u.decoder.reset }

/-- A new decoder after these uses. -/
def after (settings : Settings) (uses : List Use) : InUse := uses.foldl (step settings) {}

/-- A new decoder after these uses, each with files that go as this directory says. -/
def afterEach (settings : Settings) (uses : List (SpillDirectory × Use)) : InUse :=
  uses.foldl (fun u use => u.step (settings.within use.1) use.2) {}

variable {settings : Settings}

theorem after_concat (uses : List Use) (use : Use) :
    after settings (uses ++ [use]) = (after settings uses).step settings use := by
  simp only [after, List.foldl_append, List.foldl_cons, List.foldl_nil]

theorem after_eq_afterEach (settings : Settings) (uses : List Use) :
    after settings uses = afterEach settings (uses.map (settings.spillDirectory, ·)) := by
  simp only [after, afterEach, List.foldl_map]
  rfl

theorem left_step {u : InUse} (h : u.decoder.Left (u.closingFailed = true) u.last)
    (settings : Settings) (use : Use) :
    (u.step settings use).decoder.Left ((u.step settings use).closingFailed = true)
      (u.step settings use).last := by
  cases use with
  | maySpill => exact h
  | reset => exact .fresh Bool.false_ne_true
  | decode expectMessage src =>
      cases src with
      | nil => exact h
      | cons b src =>
          exact Decoder.left_decode settings (fun k hk => h.matched_lt hk) expectMessage
            (List.cons_ne_nil b src)

theorem left_afterEach (uses : List (SpillDirectory × Use)) :
    (afterEach settings uses).decoder.Left ((afterEach settings uses).closingFailed = true)
      (afterEach settings uses).last := by
  induction uses using List.reverseRecOn with
  | nil => exact .fresh Bool.false_ne_true
  | append_singleton uses use ih =>
      simp only [afterEach, List.foldl_append, List.foldl_cons, List.foldl_nil]
      exact left_step ih _ _

/-- Where no failure of files was told last, a decoder in no frame is a fresh one. -/
theorem eq_fresh {uses : List Use} (hidle : (after settings uses).decoder.inFrame = false)
    (hlast : ∀ cause, (after settings uses).last ≠ .error (.io cause)) :
    (after settings uses).decoder = {} := by
  have hleft : (after settings uses).decoder.Left _ _ :=
    after_eq_afterEach settings uses ▸ left_afterEach _
  refine hleft.eq_fresh hidle fun hfailed => ?_
  obtain ⟨⟨failure, hresult⟩, -⟩ := hleft.of_failed hfailed
  exact hlast _ hresult

end InUse

/-- A decoder that is in no frame goes on as a fresh one exactly if its last frame was not a message
that could not be closed, however files go then.  It is a fresh one then, and nothing is left in it
of any frame.  If a message could not be closed, that was told. -/
theorem InUse.goes_on_fresh_iff (settings : Settings) (uses : List (SpillDirectory × Use))
    (hidle : (afterEach settings uses).decoder.inFrame = false) :
    let u := afterEach settings uses
    (∀ directory,
      (∀ expectMessage src,
        u.decoder.decode (settings.within directory) expectMessage src
          = Decoder.decode (settings.within directory) {} expectMessage src) ↔
        u.closingFailed = false) ∧
    (u.closingFailed = false → u.decoder = {}) ∧
    (u.closingFailed = true → ∃ failure : FileFailure, u.last = .error (.io failure.cause)) := by
  intro u
  have hleft : u.decoder.Left (u.closingFailed = true) u.last := left_afterEach uses
  have hidle : u.decoder.inFrame = false := hidle
  have hfresh (hnot : u.closingFailed = false) : u.decoder = {} :=
    hleft.eq_fresh hidle (Bool.eq_false_iff.1 hnot)
  refine ⟨fun directory => ⟨fun hsame => ?_, fun hnot => ?_⟩, hfresh,
    fun hfailed => (hleft.of_failed hfailed).1⟩
  · refine Bool.eq_false_iff.2 fun hfailed => ?_
    obtain ⟨-, hkind, hheld⟩ := hleft.of_failed hfailed
    have hdot := hsame true ([dot] ++ crlf)
    have hd := Decoder.decode_dot_of_idle (settings.within directory) hkind
    rw [hdot, Decoder.decode_dot_of_idle _ rfl] at hd
    have hne := Store.message_ne_empty (settings.within directory) hheld
    cases hmessage : u.decoder.store.message (settings.within directory) with
    | error cause => rw [hmessage] at hd; cases hd
    | ok m =>
        rw [hmessage] at hd hne
        cases hd
        exact hne rfl
  · intro expectMessage src
    rw [hfresh hnot]

/-- A line above the limit leaves nothing, and neither does a message of which the last write
fails. -/
theorem InUse.goes_on_fresh_after_failures :
    let settings : Settings := { maxLine := 2, spillThreshold := 4 }
    let full : SpillDirectory :=
      { writes := [none, some ⟨1, ⟨⟨.storageFull, "No space left on device"⟩, rfl⟩⟩] }
    let u := afterEach settings [(.standard, .decode false (Text.encode "NOOP\r\n"))]
    let v := afterEach settings [(full, .decode true (Text.encode "abcde\r\n.\r\n"))]
    u.last = .error (.lineTooLong 4) ∧ u.decoder = {} ∧
      v.last = .error (.io ⟨.storageFull, "No space left on device"⟩) ∧ v.decoder = {} ∧
      ∀ expectMessage src,
        v.decoder.decode settings expectMessage src
          = Decoder.decode settings {} expectMessage src := by
  intro settings full u v
  have hu : u.last = .error (.lineTooLong 4) ∧ u.decoder.inFrame = false ∧
      u.closingFailed = false := by decide +kernel
  have hv : v.last = .error (.io ⟨.storageFull, "No space left on device"⟩) ∧
      v.decoder.inFrame = false ∧ v.closingFailed = false := by decide +kernel
  obtain ⟨-, hfresh, -⟩ := goes_on_fresh_iff settings _ hu.2.1
  obtain ⟨hsame, hfresh', -⟩ := goes_on_fresh_iff settings _ hv.2.1
  exact ⟨hu.1, hfresh hu.2.2, hv.1, hfresh' hv.2.2,
    (hsame settings.spillDirectory).2 hv.2.2⟩

/-- What a decoder that is in no frame makes of bytes when a command line is due, be it right after a
line above the limit.  The line is what stands before the first CRLF, with every CR and LF in it, and
counts by its bytes.  One above the limit is dropped as a whole, so that the next frame begins right
behind its CRLF as for a fresh decoder.  Bytes without a CRLF are all used up. -/
theorem InUse.decodes_to_first_crlf (settings : Settings) (uses : List Use)
    (hidle : (after settings uses).decoder.inFrame = false)
    (hlast : ∀ cause, (after settings uses).last ≠ .error (.io cause)) :
    let d := (after settings uses).decoder
    (∀ bs, match cut? bs with
      | some (l, rest) =>
        d.decode settings false bs
          = ⟨{}, rest,
              if l.length ≤ settings.maxLine then .ok (some (.line (settings.charset.decode l)))
              else .error (.lineTooLong l.length)⟩
      | none =>
        (d.decode settings false bs).rest = [] ∧ (d.decode settings false bs).result = .ok none) ∧
    (∀ bs l rest, cut? bs = some (l, rest) ↔ ¬ crlf <:+: l ∧ bs = l ++ crlf ++ rest) ∧
    (∀ bs, cut? bs = none ↔ ¬ crlf <:+: bs) ∧
    ∀ l n rest, ¬ crlf <:+: l →
      cut? (l ++ List.replicate n cr ++ crlf ++ rest) = some (l ++ List.replicate n cr, rest) := by
  intro d
  have hfresh : d = {} := eq_fresh hidle hlast
  rw [hfresh]
  refine ⟨?_, ?_, fun bs => cut?_eq_none, ?_⟩
  · intro bs
    split
    next l rest hcut =>
      obtain ⟨hl, rfl⟩ := eq_of_cut? hcut
      rw [Decoder.decode_line hl rest, lineResult]
      split <;> rfl
    next hcut => exact Decoder.decode_open_line (cut?_eq_none.1 hcut)
  · intro bs l rest
    constructor
    · exact eq_of_cut?
    · rintro ⟨hl, rfl⟩
      exact cut?_append hl
  · intro l n rest hl
    exact cut?_append (isLine_append_crs hl n)

/-- A line above the limit, and then one that ends in two CRs and has an LF in it. -/
theorem InUse.decodes_to_first_crlf_after_long_line :
    let settings : Settings := { maxLine := 4 }
    let u := after settings [.decode false (Text.encode "HELLO\r\n")]
    u.last = .error (.lineTooLong 5) ∧ u.decoder.inFrame = false ∧
      u.decoder.decode settings false (Text.encode "a\n\r\r\r\nQUIT")
        = ⟨{}, Text.encode "QUIT", .ok (some (.line "a\n\r\r"))⟩ := by
  intro settings u
  have hlast : u.last = .error (.lineTooLong 5) := by decide +kernel
  have hidle : u.decoder.inFrame = false := by decide +kernel
  have hnone : ∀ cause, u.last ≠ .error (.io cause) := fun cause h => by
    rw [hlast] at h
    cases h
  have hcut : cut? (Text.encode "a\n\r\r\r\nQUIT")
      = some (Text.encode "a\n\r\r", Text.encode "QUIT") := by decide +kernel
  have hdecode := (decodes_to_first_crlf settings _ hidle hnone).1 (Text.encode "a\n\r\r\r\nQUIT")
  rw [hcut] at hdecode
  have hline : settings.charset.decode (Text.encode "a\n\r\r") = "a\n\r\r" := by decide +kernel
  refine ⟨hlast, hidle, hdecode.trans ?_⟩
  rw [hline]
  rfl

/-- A message that fails at its last byte comes out in front of the next command line. -/
theorem InUse.failed_end_leaks :
    let settings : Settings := { spillThreshold := 2, spillDirectory := .missing }
    let u := after settings [.decode true (Text.encode "a\r\n.\r\n")]
    let next := Text.encode "NOOP\r\n"
    settings.fault? = none ∧ u.last = .error (.io noSpillFile) ∧ u.decoder.inFrame = false ∧
      (u.decoder.decode settings false next).result = .ok (some (.line "a\r\nNOOP")) ∧
      (Decoder.decode settings {} false next).result = .ok (some (.line "NOOP")) := by
  decide +kernel

/-- Where there is a file and the write to it fails, the file is left as well. -/
example :
    let settings : Settings := { spillThreshold := 2 }
    let full : SpillDirectory :=
      { writes := [none, some ⟨1, ⟨⟨.storageFull, "No space left on device"⟩, rfl⟩⟩] }
    let u := InUse.afterEach settings [(full, .decode true (Text.encode "abc\r\n.\r\n"))]
    u.closingFailed = true ∧ u.decoder.store.file = some (Text.encode "abc\r").toArray ∧
      (u.decoder.decode settings false (Text.encode "NOOP\r\n")).result
        = .ok (some (.line "\r\nNOOP")) := by
  decide +kernel

end Framing

end SmtpReceiver
