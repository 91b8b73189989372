import SmtpReceiver.Proofs.Command.History
import SmtpReceiver.Proofs.Framing.Due

/-!
# What makes a message due

A message is due when a `DATA` was accepted, and until the next frame.  No other
line makes one due.  A line that looks like `DATA` but answers a challenge of an
exchange has the verb `AUTH`, so it does not count as one.

The reply alone does not tell, for a listener may refuse an address with any code.
So an event opens a message if both its verb and its reply say so.
-/

namespace SmtpReceiver

open Auth (Authenticator)
open Delivery (Handler)
open Framing (Decoder Frame Kind)

variable {α δ : Type}

/-- The frame was a `DATA` that was accepted. -/
def Event.opensMessage (e : Event α δ) : Prop :=
  e.verb? = some Verb.data ∧ e.code? = some .startMessage

theorem Event.kind_of_opensMessage {e : Event α δ} (h : e.opensMessage) : e.frame.kind = .line := by
  obtain ⟨hv, -⟩ := h
  rw [Event.verb?] at hv
  cases hframe : e.frame with
  | line text => rfl
  | message m =>
      rw [hframe] at hv
      exact absurd (Option.some.inj hv) (by decide)

variable [Authenticator α] [Handler δ] {s : Session α δ} {text : String} {o : Outcome α δ}

/-! ## The command -/

theorem CommandTable.command?_data :
    (builtin (α := α) (δ := δ)).command? Verb.data = some .data :=
  command?_of_mem (c := .data) (by simp [builtinCommands])

theorem dispatch_data (hv : s.verb? (.line text) = some Verb.data) :
    CommandTable.builtin.dispatch (.line text) s
      = if s.mustAuthenticate then s.say .authenticateFirst "Authentication required"
        else Command.data.run (CommandTable.builtin (α := α) (δ := δ)).directory text s := by
  exact dispatch_of_command hv CommandTable.command?_data

/-! ## What it makes due -/

omit [Authenticator α] [Handler δ] in
theorem Asked.expectsMessage {mark : Mark} {asked : Call}
    {t : Turn Delivery.Call δ (Except Delivery.Rejection Unit)} (h : Asked s mark asked t o)
    (hmark : (s.progress.mark mark).expectsMessage = s.progress.expectsMessage) :
    o.session.progress.expectsMessage = s.progress.expectsMessage := by
  cases h with
  | accepted => exact hmark
  | refused => rfl

omit [Handler δ] in
theorem Exchanged.expectsMessage {t : Turn Auth.Call α Auth.Answer} (h : Exchanged s t o) :
    o.session.progress.expectsMessage = s.progress.expectsMessage := by
  cases h with
  | challenge | done | fault => rfl

/-- No line but `DATA` makes a message due. -/
theorem Effect.opensMessage (he : Effect s (.line text) o)
    (hnot : s.progress.expectsMessage = false) (hdue : o.session.progress.expectsMessage = true) :
    Event.opensMessage ⟨s, .line text, o⟩ := by
  have hkept (h : o.session.progress.expectsMessage = s.progress.expectsMessage) :
      Event.opensMessage ⟨s, .line text, o⟩ := by
    rw [h, hnot] at hdue
    cases hdue
  cases he with
  | data hv => exact ⟨hv, rfl⟩
  | sender address => exact hkept ((acceptSender_asked s address).expectsMessage rfl)
  | recipient address => exact hkept ((acceptRecipient_asked s address).expectsMessage rfl)
  | exchange line => exact hkept (exchange_exchanged s line).expectsMessage
  | stay | greet | quit | cancel => exact hkept rfl
  | reset | startTls | deliver => cases hdue

/-- A `DATA` that is accepted makes a message due. -/
theorem expectsMessage_of_opensMessage {frame : Frame}
    (h : Event.opensMessage ⟨s, frame, CommandTable.builtin.dispatch frame s⟩) :
    (CommandTable.builtin.dispatch frame s).session.progress.expectsMessage = true := by
  cases frame with
  | message m => cases Event.kind_of_opensMessage h
  | line text =>
      obtain ⟨hv, hcode⟩ := h
      have hverb : s.verb? (.line text) = some Verb.data := hv
      simp only [Event.code?, dispatch_data hverb, Command.data] at hcode ⊢
      by_cases hgate : s.mustAuthenticate = true
      · rw [if_pos hgate] at hcode
        cases hcode
      rw [if_neg hgate] at hcode ⊢
      by_cases hsender : (!s.progress.hasSender) = true
      · rw [if_pos hsender] at hcode
        cases hcode
      rw [if_neg hsender] at hcode ⊢
      by_cases hrecipients : s.progress.recipients = 0
      · rw [if_pos hrecipients] at hcode
        cases hcode
      rw [if_neg hrecipients]
      rfl

/-- After a frame of the kind that is due, a message is due if the frame was a `DATA` that was
accepted, and only then. -/
theorem dispatch_due {frame : Frame} (hkind : frame.kind = Decoder.due s.progress.expectsMessage) :
    (CommandTable.builtin.dispatch frame s).session.progress.expectsMessage = true ↔
      Event.opensMessage ⟨s, frame, CommandTable.builtin.dispatch frame s⟩ := by
  refine ⟨fun hdue => ?_, expectsMessage_of_opensMessage⟩
  cases frame with
  | message m =>
      rw [dispatch_message] at hdue
      cases hdue
  | line text =>
      have hnot : s.progress.expectsMessage = false := Decoder.due_eq_line.1 hkind.symm
      exact (dispatch_effect s _).opensMessage hnot hdue

/-- A `DATA` that is accepted does not ask for TLS. -/
theorem wantsTls_of_opensMessage {frame : Frame}
    (h : Event.opensMessage ⟨s, frame, CommandTable.builtin.dispatch frame s⟩) :
    (CommandTable.builtin.dispatch frame s).session.wantsTls = s.wantsTls := by
  have hdue := expectsMessage_of_opensMessage h
  obtain hwants | ⟨-, -, hsession⟩ := (dispatch_effect s frame).wants
  · exact hwants
  · rw [hsession] at hdue
    cases hdue

end SmtpReceiver
