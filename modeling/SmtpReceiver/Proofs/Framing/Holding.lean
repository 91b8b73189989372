import SmtpReceiver.Proofs.Framing.Chunks
import SmtpReceiver.Proofs.Framing.Matching
import SmtpReceiver.Proofs.Framing.Storing

/-!
# What a decoder holds

A frame in progress is a matter of three things: its kind, how much of its
delimiter is matched, and the bytes released so far.  `holding` is the decoder of
these three.  `feedFrame_holding` says that a byte takes it to another one as
long as the frame goes on, and `feedAll_holding` that bytes do.

The store of a line keeps the bytes up to the limit and counts the others
(`Store.of_line`).  The store of a message keeps all of them, in a file once they
are above the threshold (`Store.Keeps`).  That a message is kept needs a
directory in which spill files can be made.
-/

namespace SmtpReceiver.Framing

open Text (Bytes)

/-! ## Stores -/

namespace Store

/-- Adds one byte of a frame. -/
def add (settings : Settings) (k : Kind) (s : Store) (b : UInt8) : Store :=
  match k with
  | .line => s.addLineByte settings.maxLine b
  | .message => (s.addMessageBytes settings [b]).2

/-- The store of the bytes of a frame. -/
def of (settings : Settings) (k : Kind) (bs : Bytes) : Store := bs.foldl (add settings k) {}

theorem of_concat (settings : Settings) (k : Kind) (bs : Bytes) (b : UInt8) :
    of settings k (bs ++ [b]) = (of settings k bs).add settings k b := by
  simp [of]

/-- A line is held up to the limit, and the bytes above it are counted. -/
theorem of_line (settings : Settings) (bs : Bytes) :
    of settings .line bs
      = { held := (bs.take settings.maxLine).toArray
          dropped :=
            if settings.maxLine < bs.length then some (bs.length - settings.maxLine) else none } := by
  induction bs using List.reverseRecOn with
  | nil => simp [of]
  | append_singleton bs b ih =>
      rw [of_concat, ih]
      have hlen : (bs ++ [b]).length = bs.length + 1 := by simp
      by_cases hlt : settings.maxLine < bs.length
      · have htake : (bs ++ [b]).take settings.maxLine = bs.take settings.maxLine :=
          List.take_append_of_le_length (Nat.le_of_lt hlt)
        have hcount : bs.length - settings.maxLine + 1 = bs.length + 1 - settings.maxLine := by omega
        rw [if_pos hlt, if_pos (by omega), htake, hlen, ← hcount]
        rfl
      · have hheld : bs.take settings.maxLine = bs := List.take_of_length_le (Nat.le_of_not_lt hlt)
        rw [if_neg hlt, hheld]
        by_cases hfull : settings.maxLine ≤ bs.length
        · have hmax : settings.maxLine = bs.length := by omega
          simp [add, addLineByte, hmax]
        · have htake : (bs ++ [b]).take settings.maxLine = bs ++ [b] :=
            List.take_of_length_le (by omega)
          rw [if_neg (by omega), htake]
          simp [add, addLineByte, hfull]

/-- What the store of a message keeps.  The count of what was written is the size of the file. -/
structure Keeps (settings : Settings) (s : Store) (bs : Bytes) : Prop where
  content : s.content = bs
  written : s.written = (s.file.getD #[]).size
  spilled : s.file.isSome = decide (settings.spillThreshold < bs.length)

theorem keeps_nil (settings : Settings) : Keeps settings {} [] := ⟨rfl, rfl, by simp⟩

section Keeps

variable {settings : Settings} {s : Store} {bs : Bytes}

/-- The count is right, so nothing is cut off. -/
theorem Keeps.messageLength (h : Keeps settings s bs) : s.messageLength = bs.length := by
  rw [Store.messageLength, h.written, ← h.content]
  simp [Store.content]

theorem Keeps.flushed {s' : Store} (h : Keeps settings s bs)
    (hflushed : Flushed settings s (none, s')) : Keeps settings s' bs where
  content := hflushed.content.trans h.content
  written := hflushed.written h.written
  spilled := by
    rw [← h.spilled, Bool.eq_iff_iff, Option.isSome_iff_ne_none, Option.isSome_iff_ne_none]
    exact not_congr hflushed.file_eq_none

/-- The message is in the file if there is one. -/
theorem Keeps.storage (h : Keeps settings s bs) (hheld : s.file ≠ none → s.held = #[]) :
    (⟨s.storage⟩ : Message) = .ofContent bs (decide (settings.spillThreshold < bs.length)) := by
  have hcontent := h.content
  rw [Store.storage, h.messageLength, ← h.spilled]
  cases hfile : s.file with
  | some bytes =>
      have hbytes : bytes.toList = bs := by
        simpa [Store.content, hfile, hheld (by simp [hfile])] using hcontent
      simp only [← Array.length_toList, hbytes]
      rfl
  | none =>
      have hbytes : s.held.toList = bs := by simpa [Store.content, hfile] using hcontent
      simp only [hbytes]
      rfl

theorem Keeps.message (husable : settings.spillDirectory.usable = true) (h : Keeps settings s bs) :
    s.message settings = .ok (.ofContent bs (decide (settings.spillThreshold < bs.length))) := by
  obtain ⟨s', hflushed, hmessage⟩ | ⟨failure, s', hflushed, -⟩ := message_cases settings s
  · have hheld (hfile : s'.file ≠ none) : s'.held = #[] :=
      hflushed.held_eq_empty (mt hflushed.file_eq_none.2 hfile)
    rw [hmessage, (h.flushed hflushed).storage hheld]
  · cases hflushed.result_of_usable husable

/-- Where spill files can be made, bytes are added without a failure and without a loss. -/
theorem Keeps.add (husable : settings.spillDirectory.usable = true) (h : Keeps settings s bs)
    (more : Bytes) :
    (s.addMessageBytes settings more).1 = none ∧
      Keeps settings (s.addMessageBytes settings more).2 (bs ++ more) := by
  obtain ⟨s', hs, hadded⟩ := exists_added husable more s
  rw [hs]
  refine ⟨rfl, ?_, hadded.written h.written, ?_⟩
  · rw [hadded.content, content_hold, h.content]
  · have hspilled := h.spilled
    rw [hadded.isSome_file, file_hold, size_held_hold, hspilled, List.length_append]
    cases hfile : s.file with
    | some bytes =>
        rw [hfile, Option.isSome_some, eq_comm, decide_eq_true_iff] at hspilled
        simp [hspilled, Nat.lt_add_right]
    | none =>
        rw [hfile, Option.isSome_none, eq_comm] at hspilled
        have hheld : s.held.size = bs.length := by simp [← h.content, Store.content, hfile]
        rw [hspilled, hheld, Bool.false_or]

end Keeps

theorem keeps_of {settings : Settings} (husable : settings.spillDirectory.usable = true)
    (bs : Bytes) : Keeps settings (of settings .message bs) bs := by
  induction bs using List.reverseRecOn with
  | nil => exact keeps_nil settings
  | append_singleton bs b ih =>
      rw [of_concat]
      exact (ih.add husable [b]).2

end Store

/-! ## Decoders -/

namespace Decoder

/-- The decoder in a frame of which so much is released and so much is matched. -/
def holding (settings : Settings) (k : Kind) (matched : Nat) (released : Bytes) : Decoder where
  kind := some k
  matched
  phantom := k.opening - released.length
  store := .of settings k (released.drop k.opening)

variable {settings : Settings}

/-- A frame begins with nothing released and with the phantom bytes matched. -/
theorem start_eq_holding (k : Kind) : start k {} = holding settings k k.opening [] := by
  cases k <;> rfl

theorem write_holding {k : Kind}
    (husable : k = .message → settings.spillDirectory.usable = true) (b : UInt8)
    {released : Bytes} (hlen : k.opening ≤ released.length) (matched : Nat) :
    write settings k b (holding settings k matched released)
      = (none, holding settings k matched (released ++ [b])) := by
  have hphantom : k.opening - (released ++ [b]).length = k.opening - released.length := by
    simp
    omega
  simp only [holding, hphantom, List.drop_append_of_le_length hlen, Store.of_concat]
  cases k with
  | line => rfl
  | message =>
      have hkeeps := Store.keeps_of (husable rfl) (released.drop Kind.message.opening)
      simp only [write, (hkeeps.add (husable rfl) [b]).1]
      rfl

/-- Phantom bytes are passed over, and all others are written. -/
theorem emit_holding {k : Kind}
    (husable : k = .message → settings.spillDirectory.usable = true) (matched : Nat)
    (bs : Bytes) : ∀ released : Bytes,
      emit settings k bs (holding settings k matched released)
        = (none, holding settings k matched (released ++ bs)) := by
  induction bs with
  | nil => intro released; rw [List.append_nil]; rfl
  | cons b bs ih =>
      intro released
      have hsplit : released ++ b :: bs = released ++ [b] ++ bs := by simp
      rw [hsplit, ← ih, emit]
      by_cases hphantom : 0 < (holding settings k matched released).phantom
      · have hlen : released.length < k.opening := by simp [holding] at hphantom; omega
        have hdrop : (released ++ [b]).drop k.opening = released.drop k.opening := by
          rw [List.drop_of_length_le (by simp; omega), List.drop_of_length_le (by omega)]
        have hskip : holding settings k matched (released ++ [b])
            = { holding settings k matched released with
                phantom := (holding settings k matched released).phantom - 1 } := by
          simp only [holding, hdrop, List.length_append, List.length_singleton, Nat.sub_sub]
        rw [if_pos hphantom, hskip]
      · rw [if_neg hphantom]
        have hlen : k.opening ≤ released.length := by simp [holding] at hphantom; omega
        rw [write_holding husable b hlen]

theorem emit_settled {k : Kind} (husable : k = .message → settings.spillDirectory.usable = true)
    (matched : Nat) (released bs : Bytes) :
    emit settings k bs { holding settings k matched released with matched := 0 }
      = (none, holding settings k 0 (released ++ bs)) :=
  emit_holding husable 0 bs released

/-- A byte that does not complete the delimiter leaves the frame in progress. -/
theorem feedFrame_of_open {k : Kind}
    (husable : k = .message → settings.spillDirectory.usable = true)
    {matched matched' : Nat} {released bs : Bytes} {b : UInt8}
    (h : settle k matched b = ⟨bs, matched', false⟩) :
    feedFrame settings k (holding settings k matched released) b
      = (holding settings k matched' (released ++ bs), .ok none) := by
  have hemit := emit_settled husable matched released bs
  have hmatched : (holding settings k matched released).matched = matched := rfl
  simp only [feedFrame, hmatched, h, hemit]
  rfl

/-- A byte that completes the delimiter ends the frame. -/
theorem feedFrame_of_complete {k : Kind}
    (husable : k = .message → settings.spillDirectory.usable = true)
    {matched matched' : Nat} {released bs : Bytes} {b : UInt8}
    (h : settle k matched b = ⟨bs, matched', true⟩) :
    let r := (holding settings k matched' (released ++ bs)).finish settings k
    feedFrame settings k (holding settings k matched released) b = (r.1, r.2.map some) := by
  have hemit := emit_settled husable matched released bs
  have hmatched : (holding settings k matched released).matched = matched := rfl
  simp only [feedFrame, hmatched, h, hemit]
  rfl

/-- Bytes that do not complete the delimiter are released as far as they are settled. -/
theorem feedAll_holding {k : Kind}
    (husable : k = .message → settings.spillDirectory.usable = true) (expectMessage : Bool) :
    ∀ {bs : Bytes} {matched : Nat} {released : Bytes},
      (settleAll (settle k) matched bs).complete = false →
        feedAll settings expectMessage bs (holding settings k matched released)
          = ⟨holding settings k (settleAll (settle k) matched bs).matched
              (released ++ (settleAll (settle k) matched bs).released), [], .ok none⟩
  | [], matched, released, _ => by
      rw [settleAll, List.append_nil]
      rfl
  | b :: bs, matched, released, hcomplete => by
      cases hb : settle k matched b with
      | mk out matched' complete =>
          cases complete with
          | true => simp [settleAll, hb] at hcomplete
          | false =>
              have hall : settleAll (settle k) matched (b :: bs)
                  = (settleAll (settle k) matched' bs).after out := by simp [settleAll, hb]
              rw [hall] at hcomplete ⊢
              have hfeed : (holding settings k matched released).feed settings expectMessage b
                  = (holding settings k matched' (released ++ out), .ok none) :=
                feedFrame_of_open husable hb
              rw [feedAll_cons, hfeed]
              simp only [feedAll_holding husable expectMessage hcomplete, Settled.after,
                List.append_assoc]

/-! ## The end of a frame -/

theorem finish_line (matched : Nat) (l : Bytes) :
    (holding settings .line matched l).finish settings .line
      = ({}, if l.length ≤ settings.maxLine then .ok (.line (settings.charset.decode l))
          else .error (.lineTooLong l.length)) := by
  simp only [finish, finishLine, holding, Kind.opening, List.drop_zero, Store.of_line]
  by_cases hlt : settings.maxLine < l.length
  · have hmin : min settings.maxLine l.length + (l.length - settings.maxLine) = l.length := by omega
    simp [hlt, Nat.not_le.2 hlt, Store.lineLength, hmin]
  · have hle : l.length ≤ settings.maxLine := Nat.le_of_not_lt hlt
    simp [hlt, hle, List.take_of_length_le hle]

/-- What a message holds of which so much is released.  The CRLF before the final dot belongs to it,
but the phantom one does not. -/
def closed (released : Bytes) : Bytes :=
  if 2 ≤ released.length then released.drop 2 ++ crlf else []

theorem finish_released (husable : settings.spillDirectory.usable = true) (matched : Nat)
    (released : Bytes) :
    (holding settings .message matched released).finish settings .message
      = ({}, .ok (.message
          (.ofContent (closed released)
            (decide (settings.spillThreshold < (closed released).length))))) := by
  have hkeeps := Store.keeps_of husable (released.drop 2)
  unfold closed
  by_cases hphantom : 2 ≤ released.length
  · have hsub : 2 - released.length = 0 := by omega
    obtain ⟨hfailure, hadded⟩ := hkeeps.add husable crlf
    simp only [finish, finishMessage, close, holding, Kind.opening, hsub, if_pos, hphantom]
    cases hr : (Store.of settings .message (released.drop 2)).addMessageBytes settings crlf with
    | mk failure? store =>
        rw [hr] at hfailure hadded
        cases hfailure
        simp only [hadded.message husable]
  · have hsub : 2 - released.length ≠ 0 := by omega
    have hdrop : released.drop 2 = [] := List.drop_of_length_le (by omega)
    rw [hdrop] at hkeeps
    simp only [finish, finishMessage, close, holding, Kind.opening, hsub, if_false, hphantom, hdrop,
      hkeeps.message husable]

theorem finish_message (husable : settings.spillDirectory.usable = true) (matched : Nat)
    {released : Bytes} (hlen : released.length ≠ 1) :
    (holding settings .message matched released).finish settings .message
      = ({}, .ok (.message
          (.ofContent ((released ++ crlf).drop 2)
            (decide (settings.spillThreshold < ((released ++ crlf).drop 2).length))))) := by
  have hclosed : closed released = (released ++ crlf).drop 2 := by
    unfold closed
    by_cases hphantom : 2 ≤ released.length
    · rw [if_pos hphantom, List.drop_append_of_le_length hphantom]
    · have hnil : released = [] := List.eq_nil_of_length_eq_zero (by omega)
      rw [hnil]
      rfl
  rw [finish_released husable, hclosed]

end Decoder

end SmtpReceiver.Framing
