import Mathlib.Data.List.Induction
import SmtpReceiver.Proofs.Command.Effect

/-!
# What happened in a session

A session takes frames one after the other.  Each of them is an `Event`, with the
session before it and the outcome.  The *log* of a session is the list of its
events.

`history_induction` is the way to show something of a session and its log.  It
has to be true at the start, and an effect has to keep it true.
-/

namespace SmtpReceiver

open Auth (Authenticator)
open Delivery (Handler)
open Framing (Frame)

/-- A frame that was answered. -/
structure Event (α δ : Type) where
  before : Session α δ
  frame : Frame
  outcome : Outcome α δ

/-- The verb under which the frame was answered. -/
def Event.verb? {α δ : Type} (e : Event α δ) : Option String := e.before.verb? e.frame

/-- The code of the reply, if there was one. -/
def Event.code? {α δ : Type} (e : Event α δ) : Option ReplyCode :=
  match e.outcome.answer with
  | .ok r => some r.code
  | .error _ => none

variable {α δ : Type} [Authenticator α] [Handler δ]

namespace Session

def after (s : Session α δ) (frames : List Frame) : Session α δ :=
  frames.foldl (fun s frame => (CommandTable.builtin.dispatch frame s).session) s

def log (s : Session α δ) : List Frame → List (Event α δ)
  | [] => []
  | frame :: frames =>
    let o := CommandTable.builtin.dispatch frame s
    ⟨s, frame, o⟩ :: o.session.log frames

theorem after_concat (s : Session α δ) (frames : List Frame) (frame : Frame) :
    s.after (frames ++ [frame])
      = (CommandTable.builtin.dispatch frame (s.after frames)).session := by
  simp only [after, List.foldl_append, List.foldl_cons, List.foldl_nil]

theorem log_concat (frames : List Frame) (frame : Frame) : ∀ s : Session α δ,
    s.log (frames ++ [frame])
      = s.log frames
        ++ [⟨s.after frames, frame, CommandTable.builtin.dispatch frame (s.after frames)⟩] := by
  induction frames with
  | nil => intro s; rfl
  | cons first frames ih =>
      intro s
      rw [List.cons_append, log, log, ih, List.cons_append]
      rfl

/-- What is true at the start and kept by every effect is true of a session and its log. -/
theorem history_induction {s : Session α δ} {P : List (Event α δ) → Session α δ → Prop}
    (hstart : P [] s)
    (hstep : ∀ log s frame o, P log s → Effect s frame o → P (log ++ [⟨s, frame, o⟩]) o.session)
    (frames : List Frame) : P (s.log frames) (s.after frames) := by
  induction frames using List.reverseRecOn with
  | nil => exact hstart
  | append_singleton frames frame ih =>
      rw [log_concat, after_concat]
      exact hstep _ _ frame _ ih (dispatch_effect (s.after frames) frame)

end Session

end SmtpReceiver
