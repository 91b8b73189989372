import SmtpReceiver.Connection.Run
import SmtpReceiver.Proofs.Command.Effect
import SmtpReceiver.Proofs.Framing.Exact

/-!
# The reference session

What a session does is told here without a transport, a buffer and a decoder.
All bytes of the client lie before it.  It takes a frame off them, answers it,
and goes on with the others (`course`).  The frame is a line, or the lines up to
a lone dot when a message is due (`nextFrame?`).

An `Account` is what can be seen of a session from outside.  A session ends with
the reply to `QUIT`, with a failure, or when no frame is left.
-/

namespace SmtpReceiver

open Auth (Authenticator)
open Delivery (Handler)
open Framing
open Text (Bytes)

/-! ## The next frame -/

/-- The frame at the start of the bytes, or what is wrong with it, and the bytes behind it. -/
def nextFrame? (settings : Settings) (expectMessage : Bool) (bs : Bytes) :
    Option (Except Failure Frame × Bytes) :=
  if expectMessage then
    (block? bs).map fun p => (.ok (.message (received settings (Block.content p.1))), p.2)
  else (cut? bs).map fun p => (lineResult settings p.1, p.2)

section NextFrame

variable {settings : Settings} {expectMessage : Bool} {bs rest : Bytes}
  {result : Except Failure Frame}

theorem nextFrame?_nil : nextFrame? settings expectMessage [] = none := by
  cases expectMessage <;> simp [nextFrame?, cut?, block?, splitLines_of_isLine isLine_nil]

theorem nextFrame?_append (h : nextFrame? settings expectMessage bs = some (result, rest))
    (more : Bytes) :
    nextFrame? settings expectMessage (bs ++ more) = some (result, rest ++ more) := by
  cases expectMessage with
  | true =>
      obtain ⟨⟨ls, rest'⟩, hblock, heq⟩ := Option.map_eq_some_iff.1 h
      obtain ⟨rfl, rfl⟩ := Prod.mk.inj heq
      obtain ⟨hls, rfl⟩ := eq_of_block? hblock
      have hmore := block?_join hls (rest' ++ more)
      simp only [nextFrame?, if_pos]
      rw [show join ls ++ ([dot] ++ crlf ++ rest') ++ more
        = join ls ++ ([dot] ++ crlf ++ (rest' ++ more)) by simp, hmore]
      rfl
  | false =>
      obtain ⟨⟨l, rest'⟩, hcut, heq⟩ := Option.map_eq_some_iff.1 h
      obtain ⟨rfl, rfl⟩ := Prod.mk.inj heq
      obtain ⟨hl, rfl⟩ := eq_of_cut? hcut
      have hmore : cut? (l ++ crlf ++ (rest' ++ more)) = some (l, rest' ++ more) := cut?_append hl
      simp only [nextFrame?, Bool.false_eq_true, if_false]
      rw [List.append_assoc, hmore]
      rfl

theorem length_nextFrame?_lt (h : nextFrame? settings expectMessage bs = some (result, rest)) :
    rest.length < bs.length := by
  cases expectMessage with
  | true =>
      obtain ⟨⟨ls, rest'⟩, hblock, heq⟩ := Option.map_eq_some_iff.1 h
      obtain ⟨rfl, rfl⟩ := Prod.mk.inj heq
      obtain ⟨-, rfl⟩ := eq_of_block? hblock
      simp
      omega
  | false =>
      obtain ⟨⟨l, rest'⟩, hcut, heq⟩ := Option.map_eq_some_iff.1 h
      obtain ⟨rfl, rfl⟩ := Prod.mk.inj heq
      obtain ⟨-, rfl⟩ := eq_of_cut? hcut
      simp [crlf]
      omega

theorem not_isDisconnect_of_nextFrame? {failure : Failure}
    (h : nextFrame? settings expectMessage bs = some (.error failure, rest)) :
    failure.isDisconnect = false := by
  cases expectMessage with
  | true =>
      obtain ⟨p, -, heq⟩ := Option.map_eq_some_iff.1 h
      cases heq
  | false =>
      obtain ⟨p, -, heq⟩ := Option.map_eq_some_iff.1 h
      have hresult := (Prod.mk.inj heq).1
      unfold lineResult at hresult
      split at hresult
      next => cases hresult
      next => cases hresult; rfl

/-- A fresh decoder gives the next frame and leaves the bytes behind it. -/
theorem decode_of_some (husable : settings.spillDirectory.usable = true)
    (h : nextFrame? settings expectMessage bs = some (result, rest)) :
    Decoder.decode settings {} expectMessage bs = ⟨{}, rest, result.map some⟩ := by
  cases expectMessage with
  | true =>
      obtain ⟨⟨ls, rest'⟩, hblock, heq⟩ := Option.map_eq_some_iff.1 h
      obtain ⟨rfl, rfl⟩ := Prod.mk.inj heq
      exact Decoder.decode_block husable hblock
  | false =>
      obtain ⟨⟨l, rest'⟩, hcut, heq⟩ := Option.map_eq_some_iff.1 h
      obtain ⟨rfl, rfl⟩ := Prod.mk.inj heq
      obtain ⟨hl, rfl⟩ := eq_of_cut? hcut
      exact Decoder.decode_line hl rest'

theorem decode_of_none (husable : settings.spillDirectory.usable = true)
    (h : nextFrame? settings expectMessage bs = none) :
    (Decoder.decode settings {} expectMessage bs).result = .ok none := by
  cases expectMessage with
  | true => exact (Decoder.decode_open_block husable (Option.map_eq_none_iff.1 h)).2
  | false => exact (Decoder.decode_open_line (cut?_eq_none.1 (Option.map_eq_none_iff.1 h))).2

end NextFrame

/-! ## The session -/

/-- What can be seen of a session from outside. -/
structure Account where
  written : Bytes
  /-- The calls that were made, in order. -/
  calls : List Call
  result : Except Failure Unit

/-- The same account with something before it. -/
def Account.after (written : Bytes) (calls : List Call) (a : Account) : Account :=
  { a with written := written ++ a.written, calls := calls ++ a.calls }

theorem Account.after_after (written written' : Bytes) (calls calls' : List Call) (a : Account) :
    (a.after written' calls').after written calls
      = a.after (written ++ written') (calls ++ calls') := by
  simp [Account.after]

variable {α δ : Type} [Authenticator α] [Handler δ]

/-- Answers a frame, and goes on unless the session is over. -/
def answerThen (s : Session α δ) (frame : Frame) (next : Session α δ → Account) : Account :=
  let o := CommandTable.builtin.dispatch frame s
  match o.answer with
  | .error failure => ⟨failure.reply.wire, o.calls, .error failure⟩
  | .ok reply =>
    if s.verb? frame = some Verb.quit then ⟨reply.wire, o.calls, .ok ()⟩
    else (next o.session).after reply.wire o.calls

/-- What a session does with all bytes of the client. -/
def course (s : Session α δ) (bs : Bytes) : Account :=
  match _h : nextFrame? s.settings s.progress.expectsMessage bs with
  | none => ⟨[], [], .ok ()⟩
  | some (.error failure, _) => ⟨failure.reply.wire, [], .error failure⟩
  | some (.ok frame, rest) => answerThen s frame fun s' => course s' rest
termination_by bs.length
decreasing_by exact length_nextFrame?_lt _h

theorem course_of_none {s : Session α δ} {bs : Bytes}
    (h : nextFrame? s.settings s.progress.expectsMessage bs = none) :
    course s bs = ⟨[], [], .ok ()⟩ := by
  rw [course]
  split
  next => rfl
  next hr => rw [h] at hr; cases hr
  next hr => rw [h] at hr; cases hr

theorem course_of_error {s : Session α δ} {bs rest : Bytes} {failure : Failure}
    (h : nextFrame? s.settings s.progress.expectsMessage bs = some (.error failure, rest)) :
    course s bs = ⟨failure.reply.wire, [], .error failure⟩ := by
  rw [course]
  split
  next hr => rw [h] at hr; cases hr
  next hr => rw [h] at hr; cases hr; rfl
  next hr => rw [h] at hr; cases hr

theorem course_of_frame {s : Session α δ} {bs rest : Bytes} {frame : Frame}
    (h : nextFrame? s.settings s.progress.expectsMessage bs = some (.ok frame, rest)) :
    course s bs = answerThen s frame fun s' => course s' rest := by
  rw [course]
  split
  next hr => rw [h] at hr; cases hr
  next hr => rw [h] at hr; cases hr
  next hr => rw [h] at hr; cases hr; rfl

end SmtpReceiver
