import Mathlib.Algebra.Group.Nat.Defs
import SmtpReceiver.Framing.Machine
import SmtpReceiver.Proofs.Framing.Headroom

/-!
# Sums that fit a word

A decoder that checks its sums does what a decoder does, as long as every sum fits.  All sums
of a decoder in use do, if it is given fewer bytes than a buffer can hold.  What is counted of
a frame is never more than the bytes of the frame, and what is held never more than a buffer.

Where files fail the first is not true of a message.  Bytes that a failure leaves with the caller
are given to the decoder once more, and are held twice.  But what was written is in the file, so that
the buffer or the file runs full before a sum is too large.

The room for a new decoder is another matter.  The limit of a line may be any word, and at the
two greatest the CRLF behind it does not fit.
-/

namespace SmtpReceiver.Framing

open Text (Bytes)

namespace Machine

variable {settings : Settings}

/-! ## What a check comes to -/

section Follows

variable {β γ : Type}

/-- The checked result is the result itself, which has a property.  Only where files fail memory may
run out instead. -/
inductive Follows (settings : Settings) (m : Except Halt β) (a : β) (P : β → Prop) : Prop where
  | fits : m = .ok a → P a → Follows settings m a P
  | full : settings.spillDirectory.usable = false → m = .error .noMemory → Follows settings m a P

namespace Follows

variable {m : Except Halt β} {a : β} {c : γ} {f : β → Except Halt γ} {P P' : β → Prop}
  {Q : γ → Prop}

theorem bind (h : Follows settings m a P) (hf : P a → Follows settings (f a) c Q) :
    Follows settings (m >>= f) c Q := by
  cases h with
  | fits hm ha => exact hm ▸ hf ha
  | full hfails hm => exact .full hfails (hm ▸ rfl)

theorem imp (h : Follows settings m a P) (himp : P a → P' a) : Follows settings m a P' := by
  cases h with
  | fits hm ha => exact .fits hm (himp ha)
  | full hfails hm => exact .full hfails hm

end Follows

end Follows

/-- The sizes of two buffers make a word. -/
theorem sum_of_le {a b : Nat} (ha : a ≤ largestBuffer) (hb : b ≤ largestBuffer) :
    sum a b = .ok (a + b) :=
  if_pos (Nat.lt_of_le_of_lt (Nat.add_le_add ha hb) (by decide))

/-! ## The bytes of a frame -/

/-- So many bytes at most are counted, and what is held is a buffer.  Where files do not fail nothing is
held that is not counted, and the file has what was written.  Elsewhere it has no less. -/
structure Sized (settings : Settings) (n : Nat) (s : Store) : Prop where
  held : s.held.size ≤ largestBuffer
  dropped : s.dropped.getD 0 ≤ n
  counted : settings.spillDirectory.usable = true →
    s.written + s.held.size + s.dropped.getD 0 ≤ n
  file : (s.file.getD #[]).size ≤ largestBuffer
  written : s.written ≤ (s.file.getD #[]).size
  exactly : settings.spillDirectory.usable = true → (s.file.getD #[]).size ≤ s.written

theorem sized_empty (settings : Settings) (n : Nat) : Sized settings n {} where
  held := Nat.zero_le _
  dropped := Nat.zero_le _
  counted _ := Nat.zero_le _
  file := Nat.zero_le _
  written := Nat.zero_le _
  exactly _ := Nat.zero_le _

namespace Sized

variable {n : Nat} {s : Store} {bs : Bytes}

theorem mono {n' : Nat} (h : Sized settings n s) (hle : n ≤ n') : Sized settings n' s :=
  { h with
    dropped := Nat.le_trans h.dropped hle
    counted := fun husable => Nat.le_trans (h.counted husable) hle }

/-- Where files fail nothing of a message is counted. -/
theorem uncounted (h : Sized settings n s) (hfails : settings.spillDirectory.usable = false)
    (hdropped : s.dropped = none) : Sized settings 0 s :=
  { h with
    dropped := by rw [hdropped]; exact Nat.le_refl 0
    counted := fun husable => by rw [hfails] at husable; cases husable }

/-- There is room for the next bytes. -/
theorem room_follows (h : Sized settings n s) {k : Nat} (hn : n + k ≤ largestBuffer) :
    Follows settings (room (s.held.size + k)) (s.held.size + k) (· ≤ largestBuffer) := by
  by_cases hroom : s.held.size + k ≤ largestBuffer
  · exact .fits (if_pos hroom) hroom
  · refine .full (Bool.eq_false_iff.2 fun husable => hroom ?_) (if_neg hroom)
    have hcounted := h.counted husable
    omega

theorem addLineByte (h : Sized settings n s) (hn : n + 1 ≤ largestBuffer) (limit : Nat)
    (b : UInt8) :
    Follows settings (Machine.addLineByte limit b s) (s.addLineByte limit b)
      (Sized settings (n + 1)) := by
  have hroom := h.room_follows hn
  have hcounted := h.counted
  obtain ⟨held, file, written, tries, dropped⟩ := s
  cases dropped with
  | some m =>
      have hm : m ≤ n := h.dropped
      have hsum : sum m 1 = .ok (m + 1) := sum_of_le (by omega) (by decide)
      refine .fits (by simp only [Machine.addLineByte, hsum]; rfl)
        ⟨h.held, Nat.succ_le_succ hm, fun husable => ?_, h.file, h.written, h.exactly⟩
      have hcounted : written + held.size + m ≤ n := hcounted husable
      show written + held.size + (m + 1) ≤ n + 1
      omega
  | none =>
      by_cases hfull : limit ≤ held.size
      · simp only [Machine.addLineByte, Store.addLineByte, if_pos hfull]
        refine .fits rfl ⟨h.held, Nat.succ_le_succ (Nat.zero_le n), fun husable => ?_, h.file,
          h.written, h.exactly⟩
        have hcounted : written + held.size + 0 ≤ n := hcounted husable
        show written + held.size + 1 ≤ n + 1
        omega
      · simp only [Machine.addLineByte, Store.addLineByte, if_neg hfull]
        refine hroom.bind fun hheld => .fits rfl ⟨?_, Nat.zero_le _, fun husable => ?_, h.file,
          h.written, h.exactly⟩
        · rw [Array.size_push]
          exact hheld
        · have hcounted : written + held.size + 0 ≤ n := hcounted husable
          show written + (held.push b).size + 0 ≤ n + 1
          rw [Array.size_push]
          omega

/-- What is moved to a file was counted before. -/
theorem flushed {r : Option IoFailure × Store} (h : Sized settings n s)
    (hroom : (s.file.getD #[]).size + s.held.size ≤ largestBuffer)
    (hflushed : Store.Flushed settings s r) : Sized settings n r.2 := by
  have hwritten := h.written
  have hexactly := h.exactly
  cases hflushed with
  | idle => exact h
  | @failed content fault hfile _ hfault =>
      rw [hfile, Option.getD_some] at hroom hwritten
      have htake : (content ++ s.held.take fault.reaching).size ≤ content.size + s.held.size := by
        rw [Array.size_append, Array.take_eq_extract, Array.size_extract]
        omega
      refine { h with file := ?_, written := ?_, exactly := fun husable => ?_ }
      · exact Nat.le_trans htake hroom
      · rw [Option.getD_some, Array.size_append]
        exact Nat.le_add_right_of_le hwritten
      · rw [SpillDirectory.fault?_of_usable husable] at hfault
        cases hfault
  | @moved content hfile _ _ =>
      rw [hfile, Option.getD_some] at hroom hwritten hexactly
      have hsize : (content ++ s.held).size = content.size + s.held.size := Array.size_append
      refine ⟨Nat.zero_le _, h.dropped, fun husable => h.counted husable, ?_, ?_, fun husable => ?_⟩
      · exact hsize ▸ hroom
      · exact hsize ▸ Nat.add_le_add_right hwritten _
      · exact hsize ▸ Nat.add_le_add_right (hexactly husable) _

theorem flush (h : Sized settings n s) (hn : n ≤ largestBuffer) :
    Follows settings (Machine.flush settings s) (s.flush settings) fun r =>
      Sized settings n r.2 ∧ r.2.dropped = s.dropped ∧
        (r.1 ≠ none → settings.spillDirectory.usable = false) := by
  have hflushed := Store.flush_flushed settings s
  have hfails (hne : (s.flush settings).1 ≠ none) : settings.spillDirectory.usable = false :=
    Bool.eq_false_iff.2 fun husable => hne (hflushed.result_of_usable husable)
  by_cases hroom : (s.file.getD #[]).size + s.held.size ≤ largestBuffer
  · refine .fits ?_ ⟨h.flushed hroom hflushed, hflushed.dropped, hfails⟩
    have hwritten := h.written
    cases hfile : s.file with
    | none => simp only [Machine.flush, Store.flush, hfile]; rfl
    | some content =>
        rw [hfile, Option.getD_some] at hroom hwritten
        have hsum : sum s.written s.held.size = .ok (s.written + s.held.size) :=
          sum_of_le (by omega) h.held
        have hfits : room (content.size + s.held.size) = .ok (content.size + s.held.size) :=
          if_pos hroom
        simp only [Machine.flush, Store.flush, hfile, hsum, hfits]
        split
        next => rfl
        next =>
          cases settings.spillDirectory.fault? s.tries with
          | some fault => rfl
          | none => rfl
  · refine .full (Bool.eq_false_iff.2 fun husable => hroom ?_) ?_
    · have hcounted := h.counted husable
      have hexactly := h.exactly husable
      omega
    · have hbuffer := h.held
      have hwhole := h.file
      cases hfile : s.file with
      | none =>
          rw [hfile, Option.getD_none, Array.size_empty, Nat.zero_add] at hroom
          exact absurd hbuffer hroom
      | some content =>
          rw [hfile, Option.getD_some] at hroom hwhole
          have hheld : s.held.isEmpty = false := Bool.eq_false_iff.2 fun hempty => by
            rw [Array.isEmpty_iff.1 hempty, Array.size_empty] at hroom
            exact hroom hwhole
          have hfull : room (content.size + s.held.size) = .error .noMemory := if_neg hroom
          simp only [Machine.flush, hfile, hheld, hfull]
          rfl

/-- Bytes of a message are counted, or files fail. -/
theorem addMessageBytes (h : Sized settings n s) (bs : Bytes) (hn : n + bs.length ≤ largestBuffer) :
    Follows settings (Machine.addMessageBytes settings bs s) (s.addMessageBytes settings bs)
      fun r => Sized settings (n + bs.length) r.2 ∧ r.2.dropped = s.dropped ∧
        (r.1 ≠ none → settings.spillDirectory.usable = false) := by
  have hroom := h.room_follows hn
  have hsize := Store.size_held_hold bs s
  refine hroom.bind fun hheld => ?_
  have hadded : Sized settings (n + bs.length) (s.hold bs) :=
    { h with
      held := hsize ▸ hheld
      dropped := Nat.le_trans h.dropped (Nat.le_add_right _ _)
      counted := fun husable => by
        have hcounted := h.counted husable
        show s.written + (s.hold bs).held.size + s.dropped.getD 0 ≤ n + bs.length
        omega }
  simp only [Store.addMessageBytes]
  cases hfile : (s.hold bs).file with
  | some content =>
      dsimp only
      split
      next => exact hadded.flush hn
      next => exact .fits rfl ⟨hadded, rfl, fun hne => absurd rfl hne⟩
  | none =>
      dsimp only
      split
      next =>
        cases hdenied : settings.spillDirectory.denied? with
        | some failure =>
            refine .fits rfl ⟨hadded, rfl, fun _ => Bool.eq_false_iff.2 fun husable => ?_⟩
            rw [SpillDirectory.denied?_of_usable husable] at hdenied
            cases hdenied
        | none =>
            have hwritten := hadded.written
            rw [hfile] at hwritten
            have hopened : Sized settings (n + bs.length) (s.hold bs).openFile :=
              { hadded with
                file := Nat.zero_le _
                written := hwritten
                exactly := fun _ => Nat.zero_le _ }
            exact hopened.flush hn
      next => exact .fits rfl ⟨hadded, rfl, fun hne => absurd rfl hne⟩

theorem storage (h : Sized settings n s) : Machine.storage s = .ok s.storage := by
  have hwritten := Nat.le_trans h.written h.file
  have hsum : sum s.written s.held.size = .ok (s.written + s.held.size) :=
    sum_of_le hwritten h.held
  cases hfile : s.file with
  | none => simp only [Machine.storage, Store.storage, hfile]; rfl
  | some content => simp only [Machine.storage, Store.storage, hfile, hsum]; rfl

/-- A message is as long as was counted. -/
theorem message (h : Sized settings n s) (hn : n ≤ largestBuffer) :
    Follows settings (Machine.message settings s) (s.message settings) fun _ => True := by
  unfold Machine.message Store.message
  refine (h.flush hn).bind fun ⟨hsized, _, _⟩ => ?_
  generalize s.flush settings = r at hsized
  obtain ⟨cause?, s'⟩ := r
  cases cause? with
  | some cause => exact .fits rfl trivial
  | none => exact .fits (by simp only [hsized.storage]; rfl) trivial

theorem lineLength (h : Sized settings n s) (hn : n ≤ largestBuffer) :
    Machine.lineLength s = .ok s.lineLength :=
  sum_of_le h.held (Nat.le_trans h.dropped hn)

end Sized

/-! ## One byte -/

variable {k : Kind} {n : Nat} {d : Decoder} {b : UInt8} {expectMessage : Bool}

/-- What is counted of a frame in progress.  Of a message nothing is dropped. -/
structure Tally (settings : Settings) (k : Kind) (n : Nat) (d : Decoder) : Prop where
  sized : Sized settings n d.store
  dropped : k = .message → d.store.dropped = none

/-- What became of bytes that were added to a frame.  A failure is that of a message where files
fail. -/
structure Added (settings : Settings) (k : Kind) (n : Nat) (r : Option IoFailure × Decoder) :
    Prop where
  tally : Tally settings k n r.2
  failure : r.1 ≠ none → settings.spillDirectory.usable = false ∧ k = .message

namespace Tally

theorem mono {n' : Nat} (h : Tally settings k n d) (hle : n ≤ n') : Tally settings k n' d where
  sized := h.sized.mono hle
  dropped := h.dropped

theorem write (h : Tally settings k n d) (hn : n + 1 ≤ largestBuffer) (b : UInt8) :
    Follows settings (Machine.write settings k b d) (Decoder.write settings k b d)
      (Added settings k (n + 1)) := by
  cases k with
  | line =>
      refine (h.sized.addLineByte hn settings.maxLine b).bind fun hsized => .fits rfl ?_
      exact ⟨⟨hsized, nofun⟩, fun hne => absurd rfl hne⟩
  | message =>
      refine (h.sized.addMessageBytes [b] hn).bind fun ⟨hsized, hdropped, hfailure⟩ => .fits rfl ?_
      exact ⟨⟨hsized, fun hk => hdropped.trans (h.dropped hk)⟩, fun hne => ⟨hfailure hne, rfl⟩⟩

/-- The bytes behind the phantom ones are counted. -/
theorem emit : ∀ (bs : Bytes) {n : Nat} {d : Decoder}, Tally settings k n d →
    n + (bs.length - d.phantom) ≤ largestBuffer →
      Follows settings (Machine.emit settings k bs d) (Decoder.emit settings k bs d)
        (Added settings k (n + (bs.length - d.phantom)))
  | [], n, d, h, _ =>
      .fits rfl ⟨h.mono (Nat.le_add_right _ _), fun hne => absurd rfl hne⟩
  | b :: bs, n, d, h, hn => by
      rw [List.length_cons] at hn ⊢
      unfold Machine.emit Decoder.emit
      split
      next hphantom =>
        have hcount : bs.length + 1 - d.phantom = bs.length - (d.phantom - 1) := by omega
        rw [hcount] at hn ⊢
        have hpassed : Tally settings k n { d with phantom := d.phantom - 1 } :=
          ⟨h.sized, h.dropped⟩
        exact emit bs hpassed hn
      next hphantom =>
        have hzero : d.phantom = 0 := by omega
        have hcount : n + (bs.length + 1 - d.phantom) = n + 1 + (bs.length - d.phantom) := by omega
        rw [hcount] at hn ⊢
        refine (h.write (by omega) b).bind fun hadded => ?_
        have hkept : (Decoder.write settings k b d).2.phantom = d.phantom := by
          cases k with
          | line => rfl
          | message => rfl
        generalize Decoder.write settings k b d = r at hadded hkept
        obtain ⟨cause?, d'⟩ := r
        rw [← hkept] at hn ⊢
        cases cause? with
        | none => exact emit bs hadded.tally hn
        | some cause => exact .fits rfl ⟨hadded.tally.mono (Nat.le_add_right _ _), hadded.failure⟩

end Tally

/-- So many bytes at most are counted of a frame, with those held back in the match. -/
structure Counted (settings : Settings) (n : Nat) (d : Decoder) : Prop where
  bounds : d.InBounds
  heldBack : d.heldBack ≤ n
  sized : Sized settings (n - d.heldBack) d.store
  dropped : d.kind ≠ some .line → d.store.dropped = none

theorem counted_fresh (settings : Settings) (n : Nat) : Counted settings n {} where
  bounds := Decoder.inBounds_of_idle rfl
  heldBack := Nat.zero_le _
  sized := sized_empty settings _
  dropped _ := rfl

/-- The end of a frame leaves nothing that is counted. -/
theorem Tally.finish (h : Tally settings k n d) (hn : n ≤ largestBuffer)
    (hcrlf : k = .message → d.phantom = 0 → n + crlf.length ≤ largestBuffer) :
    Follows settings (Machine.finish settings k d) (d.finish settings k)
      fun r => Counted settings 0 r.1 := by
  cases k with
  | line =>
      have hlength := h.sized.lineLength hn
      simp only [Machine.finish, finishLine, Decoder.finish, Decoder.finishLine, hlength]
      cases d.store.dropped with
      | none => exact .fits rfl (counted_fresh settings 0)
      | some m => exact .fits rfl (counted_fresh settings 0)
  | message =>
      have hbounds : (d.finish settings .message).1.InBounds := Decoder.inBounds_finish .message d
      have hdropped := h.dropped rfl
      have hclose : Follows settings (close settings d) (d.close settings) fun r =>
          Sized settings largestBuffer r.2 ∧ r.2.dropped = none ∧
            (r.1 ≠ none → settings.spillDirectory.usable = false) := by
        unfold close Decoder.close
        split
        next hphantom =>
          have hroom := hcrlf rfl hphantom
          refine (h.sized.addMessageBytes crlf hroom).imp ?_
          rintro ⟨hsized, hkept, hfailure⟩
          exact ⟨hsized.mono hroom, hkept.trans hdropped, hfailure⟩
        next => exact .fits rfl ⟨h.sized.mono hn, hdropped, fun hne => absurd rfl hne⟩
      simp only [Decoder.finish, Decoder.finishMessage] at hbounds ⊢
      refine hclose.bind fun hclosed => ?_
      generalize d.close settings = r at hclosed hbounds
      obtain ⟨cause?, store⟩ := r
      obtain ⟨hsized, hkept, hfailure⟩ := hclosed
      cases cause? with
      | none =>
          refine (hsized.message (Nat.le_refl _)).bind fun _ => ?_
          dsimp only
          cases store.message settings with
          | error cause => exact .fits rfl (counted_fresh settings 0)
          | ok m => exact .fits rfl (counted_fresh settings 0)
      | some cause =>
          have hfails := hfailure (Option.some_ne_none cause)
          exact .fits rfl ⟨hbounds, Nat.le_refl 0, hsized.uncounted hfails hkept, fun _ => hkept⟩

/-- What is counted of a frame in progress counts with what is held back. -/
theorem Tally.counted {m : Nat} (h : Tally settings k m d) (hk : d.kind = some k)
    (hbounds : d.InBounds) (hle : m + d.heldBack ≤ n) : Counted settings n d where
  bounds := hbounds
  heldBack := Nat.le_of_add_left_le hle
  sized := h.sized.mono (Nat.le_sub_of_add_le hle)
  dropped hline := by
    cases k with
    | line => exact absurd hk hline
    | message => exact h.dropped rfl

/-- Where files fail nothing is counted of a message. -/
theorem Tally.uncounted (h : Tally settings .message n d) (hbounds : d.InBounds)
    (hnone : d.heldBack = 0) (hfails : settings.spillDirectory.usable = false) :
    Counted settings 0 d where
  bounds := hbounds
  heldBack := Nat.le_of_eq hnone
  sized := (h.sized.uncounted hfails (h.dropped rfl)).mono (Nat.zero_le _)
  dropped _ := h.dropped rfl

/-- What a byte leaves.  It counts one more byte as long as its frame goes on. -/
structure Taken (settings : Settings) (n : Nat) (r : Decoder × Except Failure (Option Frame)) :
    Prop where
  goesOn : r.2 = .ok none → Counted settings (n + 1) r.1
  ends : r.2 ≠ .ok none → Counted settings 0 r.1

/-- A byte adds at most one to the bytes that were released and those that are held back. -/
theorem released_le (h : d.InBounds) (hk : d.kind = some k) (b : UInt8) :
    (settle k d.matched b).released.length - d.phantom
        + ((k.pendingBytes (settle k d.matched b).matched).length
          - (d.phantom - (settle k d.matched b).released.length))
      ≤ d.heldBack + 1 := by
  have hlength := Decoder.length_settle (b := b) (h.matched k hk)
  have hphantom := h.phantom k hk
  have hone : (if k.dropsDot d.matched b then 0 else 1) ≤ 1 := by split <;> omega
  simp only [Decoder.heldBack, hk]
  omega

/-- The last byte of a message leaves two CRLF in the match, of which one is added. -/
theorem released_last_le (h : d.InBounds) (hk : d.kind = some .message)
    (hdone : (settle .message d.matched b).complete = true)
    (hphantom : d.phantom - (settle .message d.matched b).released.length = 0) :
    (settle .message d.matched b).released.length - d.phantom + crlf.length ≤ d.heldBack + 1 := by
  obtain ⟨-, -, hsettle⟩ := settle_of_complete (h.matched _ hk) hdone
  have hend : (settle .message d.matched b).matched = Kind.message.delimiter.length :=
    congrArg Settled.matched hsettle
  have hreleased := released_le h hk b
  have hfour : (Kind.message.pendingBytes (settle .message d.matched b).matched).length = 4 := by
    rw [hend]
    rfl
  have htwo : crlf.length = 2 := rfl
  omega

theorem Counted.feedFrame (h : Counted settings n d) (hk : d.kind = some k)
    (hn : n + 1 ≤ largestBuffer) (b : UInt8) :
    Follows settings (Machine.feedFrame settings k d b) (d.feedFrame settings k b)
      (Taken settings n) := by
  have hbounds := h.bounds.feedFrame settings hk b
  have hreleased := released_le h.bounds hk b
  have htally : Tally settings k (n - d.heldBack) { d with matched := 0 } :=
    ⟨h.sized, fun hmessage => h.dropped (by rw [hk, hmessage]; decide)⟩
  have hback := h.heldBack
  -- the CRLF that is added at the end of a message was counted as held back
  have hcrlf : (settle k d.matched b).complete = true → k = .message →
      d.phantom - (settle k d.matched b).released.length = 0 →
      n - d.heldBack + ((settle k d.matched b).released.length - d.phantom) + crlf.length
        ≤ largestBuffer := by
    rintro hdone rfl hphantom
    have hlast := released_last_le h.bounds hk hdone hphantom
    omega
  simp only [Machine.feedFrame, Decoder.feedFrame] at hbounds ⊢
  generalize settle k d.matched b = s at hbounds hreleased hcrlf ⊢
  have hemitted := htally.emit s.released (by show _ + (_ - d.phantom) ≤ _; omega)
  refine hemitted.bind fun ⟨htally, hfailure⟩ => ?_
  obtain ⟨store, hemit⟩ := Decoder.emit_eq settings k s.released { d with matched := 0 }
  generalize Decoder.emit settings k s.released { d with matched := 0 } = r
    at htally hfailure hemit hbounds
  obtain ⟨cause?, d'⟩ := r
  obtain rfl : d' = _ := hemit
  cases cause? with
  | some cause =>
      obtain ⟨hfails, rfl⟩ := hfailure (Option.some_ne_none cause)
      refine .fits rfl ⟨nofun, fun _ => htally.uncounted hbounds ?_ hfails⟩
      simp only [Decoder.heldBack, hk]
      exact Nat.zero_sub _
  | none =>
      have hleft : Tally settings k (n - d.heldBack + (s.released.length - d.phantom))
          { d with matched := s.matched, phantom := d.phantom - s.released.length, store } :=
        ⟨htally.sized, htally.dropped⟩
      dsimp only at hbounds ⊢
      split
      next hdone =>
        refine (hleft.finish (by omega) (hcrlf hdone)).bind fun hcounted => ?_
        exact .fits rfl ⟨fun hopen => absurd hopen (Decoder.finish_ends k _), fun _ => hcounted⟩
      next hopen =>
        rw [if_neg hopen] at hbounds
        have hkept : Decoder.heldBack
            { d with matched := s.matched, phantom := d.phantom - s.released.length, store }
            = (k.pendingBytes s.matched).length - (d.phantom - s.released.length) := by
          simp only [Decoder.heldBack, hk]
        refine .fits rfl ⟨fun _ => hleft.counted hk hbounds ?_, fun hne => absurd rfl hne⟩
        rw [hkept]
        omega

/-- A new frame begins with nothing counted. -/
theorem Counted.start (h : Counted settings n d) (hidle : d.kind = none) (k : Kind) :
    Counted settings n (d.start k) := by
  have hbounds := Decoder.inBounds_start k d
  have hdropped := h.dropped fun hk => by rw [hidle] at hk; cases hk
  have hsized : Sized settings n d.store := h.sized.mono (Nat.sub_le _ _)
  cases k with
  | line => exact ⟨hbounds, Nat.zero_le _, hsized, fun _ => hdropped⟩
  | message => exact ⟨hbounds, Nat.zero_le _, hsized, fun _ => hdropped⟩

theorem Counted.feed (h : Counted settings n d) (hn : n + 1 ≤ largestBuffer) (b : UInt8) :
    Follows settings (Machine.feed settings d expectMessage b) (d.feed settings expectMessage b)
      (Taken settings n) := by
  cases hk : d.kind with
  | some k =>
      simp only [Machine.feed, Decoder.feed, hk]
      exact h.feedFrame hk hn b
  | none =>
      simp only [Machine.feed, Decoder.feed, hk]
      refine (h.start hk (Decoder.due expectMessage)).feedFrame ?_ hn b
      cases Decoder.due expectMessage with
      | line => rfl
      | message => rfl

/-! ## Many bytes -/

/-- What a call leaves.  The bytes that it left count no less than before. -/
structure Stopped (settings : Settings) (limit : Nat) (r : Decoder.Decoded) : Prop where
  counted : ∃ n, Counted settings n r.decoder ∧ n + r.rest.length ≤ limit
  ends : r.result ≠ .ok none → Counted settings 0 r.decoder

theorem Counted.feedAll {limit : Nat} (hlimit : limit ≤ largestBuffer) :
    ∀ {src : Bytes} {n : Nat} {d : Decoder}, Counted settings n d → n + src.length ≤ limit →
      Follows settings (Machine.feedAll settings expectMessage src d)
        (Decoder.feedAll settings expectMessage src d) (Stopped settings limit)
  | [], n, d, h, hn => .fits rfl ⟨⟨n, h, hn⟩, fun hne => absurd rfl hne⟩
  | b :: src, n, d, h, hn => by
      rw [List.length_cons] at hn
      unfold Machine.feedAll
      rw [Decoder.feedAll_cons]
      refine (h.feed (by omega) b).bind fun htaken => ?_
      generalize d.feed settings expectMessage b = r at htaken
      obtain ⟨d', result⟩ := r
      have hover (hne : result ≠ .ok none) : Stopped settings limit ⟨d', src, result⟩ := by
        have hzero := htaken.ends hne
        refine ⟨⟨0, hzero, ?_⟩, fun _ => hzero⟩
        show 0 + src.length ≤ limit
        omega
      cases result with
      | error failure => exact .fits rfl (hover nofun)
      | ok frame? =>
          cases frame? with
          | some frame => exact .fits rfl (hover nofun)
          | none =>
              have hnext : n + 1 + src.length ≤ limit := by omega
              exact (htaken.goesOn rfl).feedAll hlimit hnext

theorem Counted.decode {limit : Nat} (hlimit : limit ≤ largestBuffer) {src : Bytes}
    (h : Counted settings n d) (hn : n + src.length ≤ limit) :
    Follows settings (Machine.decode settings d expectMessage src)
      (d.decode settings expectMessage src) fun r =>
        ∃ n, Counted settings n r.decoder ∧ n + r.rest.length ≤ limit := by
  refine (h.feedAll hlimit hn).bind fun hstopped => ?_
  unfold Decoder.decode
  generalize Decoder.feedAll settings expectMessage src d = r at hstopped
  obtain ⟨d', rest, result⟩ := r
  cases result with
  | ok frame? => exact .fits rfl hstopped.counted
  | error failure =>
      refine .fits rfl ?_
      dsimp only
      split
      next =>
        -- the bytes stay, and nothing is counted of them
        refine ⟨0, hstopped.ends nofun, ?_⟩
        show 0 + src.length ≤ limit
        omega
      next => exact hstopped.counted

theorem Counted.maySpill {incoming : Nat} (h : Counted settings n d)
    (hincoming : incoming ≤ largestBuffer) :
    Machine.maySpill settings d incoming expectMessage
      = .ok (d.maySpill settings incoming expectMessage) := by
  have hsum := sum_of_le h.sized.held hincoming
  simp only [Machine.maySpill, Decoder.maySpill, Store.maySpill, hsum]
  cases d.kind.getD (Decoder.due expectMessage) == .message with
  | false => rfl
  | true =>
      cases d.store.file with
      | none => rfl
      | some content => rfl

/-! ## A new decoder -/

theorem new_overflows_iff (settings : Settings) :
    new settings = .error .overflow ↔ wordCount ≤ settings.maxLine + crlf.length := by
  unfold new sum
  split
  next hfits =>
    refine iff_of_false ?_ (Nat.not_le.2 hfits)
    show (room _ >>= _) ≠ _
    unfold room
    split
    next => exact nofun
    next => exact nofun
  next hnot => exact iff_of_true rfl (Nat.not_lt.1 hnot)

end Machine

/-! ## Decoders in use -/

namespace Intake

/-- One thing that is done with a decoder and the bytes that wait for it. -/
inductive Move where
  /-- More bytes come. -/
  | receive (bs : Bytes)
  /-- The bytes are given to the decoder, when this kind of frame is due. -/
  | decode (expectMessage : Bool)
  /-- The decoder is asked whether the bytes could go to a spill file. -/
  | maySpill (expectMessage : Bool)
  /-- The decoder is told to drop the frame in progress. -/
  | reset

/-- How many bytes come. -/
def Move.size : Move → Nat
  | receive bs => bs.length
  | _ => 0

/-- How many bytes come in moves. -/
def arrived : List Move → Nat
  | [] => 0
  | move :: moves => move.size + arrived moves

/-- What a decoder says. -/
inductive Said where
  | decoded (result : Except Failure (Option Frame))
  | maySpill (answer : Bool)

end Intake

/-- A decoder, the bytes that wait for it, and what it said, last to first. -/
structure Intake where
  decoder : Decoder := {}
  src : Bytes := []
  said : List Intake.Said := []

namespace Intake

def step (settings : Settings) (i : Intake) : Move → Intake
  | .receive bs => { i with src := i.src ++ bs }
  | .decode expectMessage =>
    let r := i.decoder.decode settings expectMessage i.src
    ⟨r.decoder, r.rest, .decoded r.result :: i.said⟩
  | .maySpill expectMessage =>
    { i with said :=
        .maySpill (i.decoder.maySpill settings i.src.length expectMessage) :: i.said }
  | .reset => { i with decoder := i.decoder.reset }

/-- A new decoder after these moves. -/
def after (settings : Settings) (moves : List Move) : Intake := moves.foldl (step settings) {}

/-- The same with every sum checked. -/
def checkedStep (settings : Settings) (i : Intake) : Move → Except Machine.Halt Intake
  | .receive bs => pure { i with src := i.src ++ bs }
  | .decode expectMessage => do
    let r ← Machine.decode settings i.decoder expectMessage i.src
    pure ⟨r.decoder, r.rest, .decoded r.result :: i.said⟩
  | .maySpill expectMessage => do
    let answer ← Machine.maySpill settings i.decoder i.src.length expectMessage
    pure { i with said := .maySpill answer :: i.said }
  | .reset => pure { i with decoder := i.decoder.reset }

def checkedAfter (settings : Settings) (moves : List Move) : Except Machine.Halt Intake :=
  moves.foldlM (checkedStep settings) {}

/-- What is counted and what waits came in so many bytes. -/
def Within (settings : Settings) (limit : Nat) (i : Intake) : Prop :=
  ∃ n, Machine.Counted settings n i.decoder ∧ n + i.src.length ≤ limit

namespace Within

variable {settings : Settings} {limit : Nat} {i : Intake}

theorem step (h : Within settings limit i) (move : Move)
    (hlimit : limit + move.size ≤ Machine.largestBuffer) :
    Machine.Follows settings (checkedStep settings i move) (i.step settings move)
      (Within settings (limit + move.size)) := by
  obtain ⟨n, hcounted, hn⟩ := h
  cases move with
  | receive bs =>
      refine .fits rfl ⟨n, hcounted, ?_⟩
      show n + (i.src ++ bs).length ≤ limit + bs.length
      rw [List.length_append]
      omega
  | decode expectMessage =>
      exact (hcounted.decode hlimit hn).bind fun hdecoded => .fits rfl hdecoded
  | maySpill expectMessage =>
      have hsrc : i.src.length ≤ Machine.largestBuffer :=
        Nat.le_trans (Nat.le_of_add_left_le hn) hlimit
      refine .fits ?_ ⟨n, hcounted, hn⟩
      simp only [checkedStep, hcounted.maySpill hsrc]
      rfl
  | reset =>
      exact .fits rfl ⟨0, Machine.counted_fresh settings 0,
        Nat.le_trans (Nat.add_le_add_right (Nat.zero_le n) _) hn⟩

theorem moves : ∀ {moves : List Move} {limit : Nat} {i : Intake}, Within settings limit i →
    limit + arrived moves ≤ Machine.largestBuffer →
      Machine.Follows settings (moves.foldlM (checkedStep settings) i)
        (moves.foldl (Intake.step settings) i) (Within settings (limit + arrived moves))
  | [], _, _, h, _ => .fits rfl h
  | move :: moves, limit, i, h, hlimit => by
      have hsum : limit + arrived (move :: moves) = limit + move.size + arrived moves := by
        rw [arrived, Nat.add_assoc]
      rw [hsum] at hlimit ⊢
      rw [List.foldlM_cons, List.foldl_cons]
      refine (h.step move (Nat.le_of_add_right_le hlimit)).bind fun hstep => ?_
      exact hstep.moves hlimit

end Within

/-- The room for a new decoder overflows if the limit of a line is one of the two greatest words,
and only then.  No other sum of a decoder overflows, whatever is done with it, while fewer than half
as many bytes come as there are words.  Then it does what a decoder does, unless failures of files fill
its buffer or its file. -/
theorem sums_fit (settings : Settings) :
    (Machine.new settings = .error .overflow ↔ 2 ^ 64 ≤ settings.maxLine + 2) ∧
    ∀ moves, arrived moves < 2 ^ 63 →
      checkedAfter settings moves = .ok (after settings moves) ∨
        (settings.spillDirectory.usable = false ∧
          checkedAfter settings moves = .error .noMemory) := by
  have hhalf : 2 ^ 63 = Machine.largestBuffer + 1 := rfl
  refine ⟨Machine.new_overflows_iff settings, fun moves hmoves => ?_⟩
  have hlimit : 0 + arrived moves ≤ Machine.largestBuffer := by omega
  have hfresh : Within settings 0 {} := ⟨0, Machine.counted_fresh settings 0, Nat.le_refl 0⟩
  cases hfresh.moves hlimit with
  | fits hchecked => exact .inl hchecked
  | full hfails hchecked => exact .inr ⟨hfails, hchecked⟩

/-- A message of five bytes spills, and every sum fits. -/
theorem sums_fit_spilled :
    let settings : Settings := { spillThreshold := 2 }
    let moves : List Move :=
      [.receive (Text.encode "abc"), .maySpill true, .decode true,
        .receive (Text.encode "\r\n.\r\n"), .decode true]
    arrived moves < 2 ^ 63 ∧ checkedAfter settings moves = .ok (after settings moves) := by
  intro settings moves
  have hmoves : arrived moves < 2 ^ 63 := by decide
  have husable : settings.spillDirectory.usable ≠ false := by decide
  exact ⟨hmoves, ((sums_fit settings).2 moves hmoves).resolve_right fun h => husable h.1⟩

/-- A limit that is meant to be none passes for settings, and no decoder can be made. -/
theorem largest_limit_overflows :
    let settings : Settings := { maxLine := 18446744073709551615 }
    settings.fault? = none ∧ Machine.new settings = .error .overflow :=
  ⟨rfl, rfl⟩

end Intake

end SmtpReceiver.Framing
