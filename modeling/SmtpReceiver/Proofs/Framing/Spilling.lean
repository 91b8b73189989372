import SmtpReceiver.Proofs.Framing.Isolation
import SmtpReceiver.Proofs.Delivery.Readers

/-!
# Spilling does not show

Where spill files can be made, the threshold decides only where the bytes of a
message are kept.  Two decoders that are used in the same way, under thresholds
of their own, are in the same place of the same frame (`Alike`), and they give
the same frames but for where a message is kept (`SameResult`).

The memory that a frame takes does not grow with it.  Whatever is added to the
store of a message, what is held afterwards is within the threshold, and less
than one write to the file once there is one (`Store.within_addMessageBytes`).
-/

namespace SmtpReceiver.Framing

open Text (Bytes)

/-- The frame, as if it had been kept in memory. -/
def Frame.unspilled : Frame → Frame
  | .line text => .line text
  | .message m => .message (.held m.content)

/-! ## Memory -/

theorem one_lt_spillThreshold {settings : Settings} (hvalid : settings.fault? = none) :
    1 < settings.spillThreshold := by
  unfold Settings.fault? at hvalid
  split at hvalid
  next => cases hvalid
  next hpower =>
    simp only [Bool.or_eq_true, decide_eq_true_eq, not_or] at hpower
    omega

namespace Store

/-- What the store of a message holds in memory. -/
structure Within (settings : Settings) (s : Store) : Prop where
  threshold : s.held.size ≤ settings.spillThreshold
  batch : s.file.isSome = true → s.held.size < min settings.spillThreshold spillBatch

variable {settings : Settings}

theorem within_empty (settings : Settings) : Within settings {} := ⟨Nat.zero_le _, nofun⟩

/-- Adding flushes in time, whatever was held before. -/
theorem within_addMessageBytes (hvalid : settings.fault? = none)
    (husable : settings.spillDirectory.usable = true) (bs : Bytes) (s : Store) :
    Within settings (s.addMessageBytes settings bs).2 := by
  have hthreshold := one_lt_spillThreshold hvalid
  have hbatch : 0 < min settings.spillThreshold spillBatch := by
    simp only [spillBatch]
    omega
  obtain ⟨s', hs, hadded⟩ := exists_added husable bs s
  rw [hs]
  have hempty (hheld : s'.held = #[]) : Within settings s' :=
    ⟨by rw [hheld]; exact Nat.zero_le _, fun _ => by rw [hheld]; exact hbatch⟩
  cases hadded with
  | kept hroom hfew =>
      cases hfile : (s.hold bs).file with
      | none => exact ⟨hroom hfile, fun hsome => by rw [hfile] at hsome; cases hsome⟩
      | some content =>
          have hlt := hfew (by rw [hfile]; exact Option.some_ne_none content)
          exact ⟨Nat.le_of_lt (Nat.lt_of_lt_of_le hlt (Nat.min_le_left _ _)), fun _ => hlt⟩
  | batched hfile _ hflushed => exact hempty (hflushed.held_eq_empty hfile)
  | opened _ _ _ hflushed => exact hempty (hflushed.held_eq_empty (Option.some_ne_none _))

theorem within_of (hvalid : settings.fault? = none)
    (husable : settings.spillDirectory.usable = true) (bs : Bytes) :
    Within settings (of settings .message bs) := by
  cases bs using List.reverseRecOn with
  | nil => exact within_empty settings
  | append_singleton bs b =>
      rw [of_concat]
      exact within_addMessageBytes hvalid husable [b] _

theorem held_of_line (bs : Bytes) : (of settings .line bs).held.size ≤ settings.maxLine := by
  rw [of_line, List.size_toArray]
  exact List.length_take_le _ _

end Store

namespace Decoder

/-- What a decoder in a frame holds in memory, and that it counts right what it will hold. -/
structure Within (settings : Settings) (d : Decoder) : Prop where
  line : d.kind = some .line → d.store.held.size ≤ settings.maxLine
  message : d.kind = some .message → d.store.Within settings
  counted : d.kind = some .message → ∀ more,
    let s := (d.store.addMessageBytes settings more).2
    s.messageLength = s.content.length

/-! ## One threshold and another -/

/-- Spill files can be made under both settings, and both treat lines in the same way. -/
structure SameButSpilling (settings settings' : Settings) : Prop where
  maxLine : settings'.maxLine = settings.maxLine
  charset : settings'.charset = settings.charset
  usable : settings.spillDirectory.usable = true
  usable' : settings'.spillDirectory.usable = true

/-- Results that differ at most in where a message was kept. -/
inductive SameResult (settings settings' : Settings) :
    Except Failure (Option Frame) → Except Failure (Option Frame) → Prop where
  | nothing : SameResult settings settings' (.ok none) (.ok none)
  | line (text : String) :
    SameResult settings settings' (.ok (some (.line text))) (.ok (some (.line text)))
  | message (content : Bytes) :
    SameResult settings settings' (.ok (some (.message (received settings content))))
      (.ok (some (.message (received settings' content))))
  | failure (failure : Failure) : SameResult settings settings' (.error failure) (.error failure)

/-- Decoders in the same place of the same frame, or in none. -/
inductive Alike (settings settings' : Settings) : Decoder → Decoder → Prop where
  | idle : Alike settings settings' {} {}
  | inFrame (k : Kind) (matched : Nat) (released : Bytes) :
    Alike settings settings' (holding settings k matched released)
      (holding settings' k matched released)

/-- Calls that did the same. -/
structure Decoded.Same (settings settings' : Settings) (r r' : Decoded) : Prop where
  decoder : Alike settings settings' r.decoder r'.decoder
  rest : r.rest = r'.rest
  result : SameResult settings settings' r.result r'.result

section Threshold

variable {settings settings' : Settings} {d d' : Decoder}

theorem SameButSpilling.finish (h : SameButSpilling settings settings') (k : Kind) (matched : Nat)
    (released : Bytes) :
    let r := (holding settings k matched released).finish settings k
    let r' := (holding settings' k matched released).finish settings' k
    Alike settings settings' r.1 r'.1 ∧
      SameResult settings settings' (r.2.map some) (r'.2.map some) := by
  intro r r'
  cases k with
  | line =>
      have hr : r = ({}, lineResult settings released) := finish_line matched released
      have hr' : r' = ({}, lineResult settings' released) := finish_line matched released
      rw [hr, hr']
      simp only [lineResult, h.maxLine, h.charset]
      split
      next => exact ⟨.idle, .line _⟩
      next => exact ⟨.idle, .failure _⟩
  | message =>
      have hr : r = _ := finish_released h.usable matched released
      have hr' : r' = _ := finish_released h.usable' matched released
      rw [hr, hr']
      exact ⟨.idle, .message _⟩

theorem SameButSpilling.feedFrame (h : SameButSpilling settings settings') (k : Kind)
    (matched : Nat) (released : Bytes) (b : UInt8) :
    let r := (holding settings k matched released).feedFrame settings k b
    let r' := (holding settings' k matched released).feedFrame settings' k b
    Alike settings settings' r.1 r'.1 ∧ SameResult settings settings' r.2 r'.2 := by
  intro r r'
  cases hsettle : settle k matched b with
  | mk out matched' complete =>
      cases complete with
      | false =>
          have hr : r = _ := feedFrame_of_open (fun _ => h.usable) hsettle
          have hr' : r' = _ := feedFrame_of_open (fun _ => h.usable') hsettle
          rw [hr, hr']
          exact ⟨.inFrame k matched' _, .nothing⟩
      | true =>
          have hr : r = _ := feedFrame_of_complete (fun _ => h.usable) hsettle
          have hr' : r' = _ := feedFrame_of_complete (fun _ => h.usable') hsettle
          rw [hr, hr']
          exact h.finish k matched' _

namespace Alike

theorem inFrame_eq (halike : Alike settings settings' d d') : d.inFrame = d'.inFrame := by
  cases halike with
  | idle => rfl
  | inFrame => rfl

theorem feed (halike : Alike settings settings' d d') (h : SameButSpilling settings settings')
    (expectMessage : Bool) (b : UInt8) :
    let r := d.feed settings expectMessage b
    let r' := d'.feed settings' expectMessage b
    Alike settings settings' r.1 r'.1 ∧ SameResult settings settings' r.2 r'.2 := by
  cases halike with
  | inFrame k matched released => exact h.feedFrame k matched released b
  | idle =>
      have hstart : start (due expectMessage) {} = holding settings _ _ [] := start_eq_holding _
      have hstart' : start (due expectMessage) {} = holding settings' _ _ [] := start_eq_holding _
      have hsame := h.feedFrame (due expectMessage) (due expectMessage).opening [] b
      dsimp only at hsame
      rw [← hstart, ← hstart'] at hsame
      exact hsame

theorem feedAll (h : SameButSpilling settings settings') (expectMessage : Bool) :
    ∀ {src : Bytes} {d d' : Decoder}, Alike settings settings' d d' →
      Decoded.Same settings settings' (d.feedAll settings expectMessage src)
        (d'.feedAll settings' expectMessage src)
  | [], d, d', halike => ⟨halike, rfl, .nothing⟩
  | b :: src, d, d', halike => by
      obtain ⟨hdecoder, hresult⟩ := halike.feed h expectMessage b
      rw [feedAll_cons, feedAll_cons]
      generalize d.feed settings expectMessage b = r at hdecoder hresult
      generalize d'.feed settings' expectMessage b = r' at hdecoder hresult
      obtain ⟨d, result⟩ := r
      obtain ⟨d', result'⟩ := r'
      cases hresult with
      | nothing => exact feedAll h expectMessage hdecoder
      | line text => exact ⟨hdecoder, rfl, .line text⟩
      | message content => exact ⟨hdecoder, rfl, .message content⟩
      | failure failure => exact ⟨hdecoder, rfl, .failure failure⟩

theorem decode (halike : Alike settings settings' d d') (h : SameButSpilling settings settings')
    (expectMessage : Bool) (src : Bytes) :
    Decoded.Same settings settings' (d.decode settings expectMessage src)
      (d'.decode settings' expectMessage src) := by
  have hsame : Decoded.Same settings settings' (d.feedAll settings expectMessage src)
      (d'.feedAll settings' expectMessage src) := feedAll h expectMessage halike
  simp only [Decoder.decode]
  generalize d.feedAll settings expectMessage src = r at hsame
  generalize d'.feedAll settings' expectMessage src = r' at hsame
  obtain ⟨d, rest, result⟩ := r
  obtain ⟨d', rest', result'⟩ := r'
  obtain ⟨hdecoder, hrest, hresult⟩ := hsame
  cases hresult with
  | nothing => exact ⟨hdecoder, hrest, .nothing⟩
  | line text => exact ⟨hdecoder, hrest, .line text⟩
  | message content => exact ⟨hdecoder, hrest, .message content⟩
  | failure failure =>
      have hin : d.inFrame = d'.inFrame := hdecoder.inFrame_eq
      dsimp only
      rw [hin]
      split
      next => exact ⟨hdecoder, rfl, .failure failure⟩
      next => exact ⟨hdecoder, hrest, .failure failure⟩

/-- Decoders that are used in the same way stay alike. -/
theorem after (h : SameButSpilling settings settings') (uses : List Use) :
    Alike settings settings' (InUse.after settings uses).decoder
      (InUse.after settings' uses).decoder := by
  induction uses using List.reverseRecOn with
  | nil => exact .idle
  | append_singleton uses use ih =>
      rw [InUse.after_concat, InUse.after_concat]
      cases use with
      | maySpill => exact ih
      | reset => exact .idle
      | decode expectMessage src =>
          cases src with
          | nil => exact ih
          | cons b src => exact (ih.decode h expectMessage (b :: src)).decoder

theorem within (halike : Alike settings settings' d d') (hvalid : settings.fault? = none)
    (husable : settings.spillDirectory.usable = true) : d.Within settings := by
  cases halike with
  | idle => exact ⟨nofun, nofun, nofun⟩
  | inFrame k matched released =>
      cases k with
      | line => exact ⟨fun _ => Store.held_of_line _, nofun, nofun⟩
      | message =>
          refine ⟨nofun, fun _ => Store.within_of hvalid husable _, fun _ more => ?_⟩
          have hkeeps := ((Store.keeps_of husable (released.drop 2)).add husable more).2
          exact hkeeps.messageLength.trans (congrArg List.length hkeeps.content).symm

end Alike

namespace SameResult

variable {result result' : Except Failure (Option Frame)}

theorem unspilled (h : SameResult settings settings' result result') :
    result.map (Option.map Frame.unspilled) = result'.map (Option.map Frame.unspilled) := by
  cases h with
  | nothing => rfl
  | line text => rfl
  | message content =>
      simp only [Except.map, Option.map_some, Frame.unspilled, received, Message.content_ofContent]
  | failure failure => rfl

/-- As many bytes as were recorded are read back, and a message that has more than the threshold was
spilled. -/
theorem recorded (h : SameResult settings settings' result result') {m : Message}
    (hm : result = .ok (some (.message m))) :
    m.open.readAll.1.length = m.size ∧ (m.spilled = true ↔ settings.spillThreshold < m.size) := by
  cases h with
  | nothing => cases hm
  | line text => cases hm
  | failure failure => cases hm
  | message content =>
      cases hm
      rw [Message.readAll_open, received, Message.content_ofContent, Message.size_ofContent,
        Message.spilled_ofContent, decide_eq_true_iff]
      exact ⟨rfl, Iff.rfl⟩

end SameResult

end Threshold

end Decoder

/-- The settings with another spill threshold. -/
def spillingAbove (threshold : Nat) (settings : Settings) : Settings :=
  { settings with spillThreshold := threshold }

open Decoder in
/-- Whatever a decoder was used for, the next call gives the same frames under any other threshold,
and leaves the same bytes.  Only where a message is kept may differ, and that is a file exactly if the
length that came with the message is above the threshold.  As many bytes as that are read back.  A
call that does not fail leaves no more in memory than one line, or one threshold, or less than one
write to the spill file. -/
theorem InUse.spilling_does_not_show (settings : Settings) (hvalid : settings.fault? = none)
    (husable : settings.spillDirectory.usable = true) (threshold : Nat) (uses : List Use)
    (expectMessage : Bool) (src : Bytes) :
    let settings' := spillingAbove threshold settings
    let r := (after settings uses).decoder.decode settings expectMessage src
    let r' := (after settings' uses).decoder.decode settings' expectMessage src
    (r.result.map (Option.map Frame.unspilled) = r'.result.map (Option.map Frame.unspilled) ∧
      r.rest = r'.rest ∧ r.decoder.inFrame = r'.decoder.inFrame) ∧
    (∀ m, r.result = .ok (some (.message m)) →
      m.open.readAll.1.length = m.size ∧ (m.spilled = true ↔ settings.spillThreshold < m.size)) ∧
    ∀ frame?, r.result = .ok frame? → r.decoder.Within settings := by
  intro settings' r r'
  have h : SameButSpilling settings settings' := ⟨rfl, rfl, husable, husable⟩
  obtain ⟨hdecoder, hrest, hresult⟩ := (Alike.after h uses).decode h expectMessage src
  refine ⟨⟨hresult.unspilled, hrest, hdecoder.inFrame_eq⟩, ?_, ?_⟩
  · intro m hm
    exact hresult.recorded hm
  · intro _ _
    exact hdecoder.within hvalid husable

theorem InUse.spilling_does_not_show_three_bytes :
    let settings : Settings := { spillThreshold := 2 }
    let uses : List Use := [.decode false (Text.encode "DATA\r\n"), .decode true (Text.encode "a\r\n.")]
    let r := (after settings uses).decoder.decode settings true crlf
    let settings' := spillingAbove 4 settings
    let r' := (after settings' uses).decoder.decode settings' true crlf
    settings.fault? = none ∧ settings.spillDirectory.usable = true ∧
      r.result = .ok (some (.message (.ofContent (Text.encode "a\r\n") true))) ∧
      r'.result.map (Option.map Frame.unspilled)
        = .ok (some (.message (.held (Text.encode "a\r\n")))) := by
  intro settings uses r settings' r'
  have hvalid : settings.fault? = none := by decide +kernel
  have hresult : r.result = .ok (some (.message (.ofContent (Text.encode "a\r\n") true))) := by
    decide +kernel
  obtain ⟨⟨hsame, -⟩, -⟩ := spilling_does_not_show settings hvalid rfl 4 uses true crlf
  refine ⟨hvalid, rfl, hresult, hsame.symm.trans ?_⟩
  show r.result.map _ = _
  rw [hresult]
  rfl

end SmtpReceiver.Framing
