import SmtpReceiver.Auth.Composite
import SmtpReceiver.Delivery.Fanout
import SmtpReceiver.Proofs.Command.History

/-!
# The order of commands

A client greets, names a sender, then recipients, and then begins a message.
Each step stands only on the one before, and the recipients never exceed the
limit.  An exchange is under way only for a client that has not authenticated,
and the peer has a user exactly if the client has authenticated.  No message
waits between two frames.

`Session.InOrder` says all of this of one session.  A new session is in order, and
every effect keeps it so, also one that ends in a failure (`inOrder_after`).
-/

namespace SmtpReceiver

open Auth (Authenticator PlainLogin)
open Delivery (Fanout Handler)
open Framing (Frame)

variable {α δ : Type}

/-- A session in which nothing was said. -/
structure Session.New (s : Session α δ) : Prop where
  progress : s.progress = {}
  user : s.peer.user = none
  pending : s.pending = none

/-- Each step stands on the one before. -/
structure Session.InOrder (s : Session α δ) : Prop where
  message : s.progress.expectsMessage = true → 0 < s.progress.recipients
  recipients : 0 < s.progress.recipients → s.progress.hasSender = true
  sender : s.progress.hasSender = true → s.progress.greeted = true
  room : ∀ limit, s.settings.maxRecipients = some limit → s.progress.recipients ≤ limit
  exchange : s.progress.authenticating = true → s.progress.authenticated = false
  user : s.progress.authenticated = s.peer.user.isSome
  pending : s.pending = none

namespace Session

/-! ## One frame -/

theorem New.inOrder {s : Session α δ} (h : s.New) : s.InOrder where
  message hmessage := by rw [h.progress] at hmessage; cases hmessage
  recipients hrecipients := by rw [h.progress] at hrecipients; cases hrecipients
  sender hsender := by rw [h.progress] at hsender; cases hsender
  room _ _ := by rw [h.progress]; exact Nat.zero_le _
  exchange hexchange := by rw [h.progress] at hexchange; cases hexchange
  user := by rw [h.progress, h.user]; rfl
  pending := h.pending

namespace InOrder

variable {s : Session α δ} {asked : Call} {o : Outcome α δ}

/-- The end of a transaction takes back the sender, the recipients and the message together. -/
theorem reset [Handler δ] (h : s.InOrder) : s.reset.InOrder where
  message hmessage := by cases hmessage
  recipients hrecipients := by cases hrecipients
  sender hsender := by cases hsender
  room _ _ := Nat.zero_le _
  exchange := h.exchange
  user := h.user
  pending := rfl

theorem forget [Authenticator α] [Handler δ] (s : Session α δ) (wantsTls : Bool) :
    { s.forget.next with wantsTls }.InOrder where
  message hmessage := by cases hmessage
  recipients hrecipients := by cases hrecipients
  sender hsender := by cases hsender
  room _ _ := Nat.zero_le _
  exchange hexchange := by cases hexchange
  user := rfl
  pending := rfl

theorem sender_asked (h : s.InOrder) {t : Turn Delivery.Call δ (Except Delivery.Rejection Unit)}
    (hasked : Asked s (.sender true) asked t o) (hgreeted : s.progress.greeted = true) :
    o.session.InOrder := by
  cases hasked with
  | refused => exact ⟨h.message, h.recipients, h.sender, h.room, h.exchange, h.user, h.pending⟩
  | accepted =>
      exact ⟨h.message, fun _ => rfl, fun _ => hgreeted, h.room, h.exchange, h.user, h.pending⟩

theorem room_of_not_full {limit : Nat} (hfull : Command.isFull s = false)
    (hlimit : s.settings.maxRecipients = some limit) : s.progress.recipients + 1 ≤ limit := by
  simp only [Command.isFull, hlimit] at hfull
  exact Nat.lt_of_not_le (of_decide_eq_false hfull)

theorem recipient_asked (h : s.InOrder)
    {t : Turn Delivery.Call δ (Except Delivery.Rejection Unit)}
    (hasked : Asked s .recipient asked t o) (hsender : s.progress.hasSender = true)
    (hfull : Command.isFull s = false) : o.session.InOrder := by
  cases hasked with
  | refused => exact ⟨h.message, h.recipients, h.sender, h.room, h.exchange, h.user, h.pending⟩
  | accepted =>
      refine ⟨fun _ => Nat.succ_pos _, fun _ => hsender, h.sender, ?_, h.exchange, h.user, h.pending⟩
      intro limit hlimit
      exact room_of_not_full hfull hlimit

theorem exchanged [Authenticator α] (h : s.InOrder) {t : Turn Auth.Call α Auth.Answer}
    (hexchanged : Exchanged s t o) (hnot : s.progress.authenticated = false) :
    o.session.InOrder := by
  cases hexchanged with
  | challenge => exact ⟨h.message, h.recipients, h.sender, h.room, fun _ => hnot, h.user, h.pending⟩
  | done =>
      refine ⟨h.message, h.recipients, h.sender, h.room, ?_, rfl, h.pending⟩
      intro hexchange
      cases hexchange
  | fault =>
      have huser := h.user
      rw [hnot] at huser
      exact ⟨h.message, h.recipients, h.sender, h.room, fun _ => rfl, huser, h.pending⟩

variable [Authenticator α] [Handler δ] {frame : Frame}

theorem effect (h : s.InOrder) (he : Effect s frame o) : o.session.InOrder := by
  cases he with
  | stay => exact h
  | greet =>
      exact ⟨h.message, h.recipients, fun _ => rfl, h.room, h.exchange, h.user, h.pending⟩
  | quit => exact ⟨h.message, h.recipients, h.sender, h.room, h.exchange, h.user, h.pending⟩
  | reset => exact h.reset
  | startTls => exact forget s true
  | sender address _ _ hgreeted => exact h.sender_asked (acceptSender_asked s address) hgreeted
  | recipient address _ _ hsender hfull =>
      exact h.recipient_asked (acceptRecipient_asked s address) hsender hfull
  | data _ _ _ hrecipients =>
      refine ⟨?_, h.recipients, h.sender, h.room, h.exchange, h.user, h.pending⟩
      intro _
      exact Nat.pos_of_ne_zero hrecipients
  | cancel =>
      refine ⟨h.message, h.recipients, h.sender, h.room, ?_, h.user, h.pending⟩
      intro hexchange
      cases hexchange
  | exchange text _ _ hnot => exact h.exchanged (exchange_exchanged s text) hnot
  | deliver m =>
      have hnext : { s with delivery := (Handler.message s.delivery s.peer m).next }.InOrder :=
        ⟨h.message, h.recipients, h.sender, h.room, h.exchange, h.user, h.pending⟩
      exact hnext.reset

end InOrder

end Session

/-! ## Calls of lines -/

/-- A message was given to the delivery handler. -/
def Call.isMessage : Call → Bool
  | .message .. => true
  | _ => false

variable {s : Session α δ} {o : Outcome α δ}

variable [Authenticator α] [Handler δ]

/-- Only a frame that is a message is handed over. -/
theorem Effect.line_gives_no_message {text : String} (he : Effect s (.line text) o)
    (hpending : s.pending = none) : ∀ c ∈ o.calls, c.isMessage = false := by
  have hauth : ∀ calls : List Auth.Call, ∀ c ∈ calls.map Call.auth, c.isMessage = false := by
    intro calls c hc
    obtain ⟨call, -, rfl⟩ := List.mem_map.1 hc
    rfl
  have hasked : ∀ (asked : Call) (calls : List Delivery.Call), asked.isMessage = false →
      ∀ c ∈ asked :: calls.map Call.delivery, c.isMessage = false := by
    intro asked calls hnot c hc
    cases hc with
    | head => exact hnot
    | tail _ hc =>
        obtain ⟨call, -, rfl⟩ := List.mem_map.1 hc
        rfl
  cases he with
  | startTls => exact hauth _
  | cancel => exact hauth _
  | exchange line =>
      obtain ⟨calls, hcalls⟩ := (exchange_exchanged s line).calls
      rw [hcalls]
      exact hauth calls
  | sender address =>
      rw [(acceptSender_asked s address).calls]
      exact hasked _ _ rfl
  | recipient address =>
      rw [(acceptRecipient_asked s address).calls]
      exact hasked _ _ rfl
  | deliver m hm =>
      cases hm with
      | inl hframe => cases hframe
      | inr hm => rw [hpending] at hm; cases hm.2
  | stay | greet | quit | reset | data =>
      intro c hc
      cases hc

/-! ## All frames -/

namespace Session

theorem active_after (hended : s.progress.active = false) (frames : List Frame) :
    (s.after frames).progress.active = false := by
  refine history_induction (P := fun _ s => s.progress.active = false) hended ?_ frames
  intro log s frame o hended he
  rw [he.active, hended]
  rfl

/-- After any frames the session is in order.  A line gives no message to the delivery handler, and
is refused if it is the verb of the end of a message.  A session that has ended stays so. -/
theorem inOrder_after (hnew : s.New) (frames : List Frame) :
    let t := s.after frames
    t.InOrder ∧
    (∀ text,
      let o := CommandTable.builtin.dispatch (.line text) t
      (∀ c ∈ o.calls, c.isMessage = false) ∧
        (t.verb? (.line text) = some Verb.dataEnd →
          o = t.say .notUnderstood "Command not implemented")) ∧
    (t.progress.active = false → ∀ more, (s.after (frames ++ more)).progress.active = false) := by
  intro t
  have horder : t.InOrder :=
    history_induction (P := fun _ s => s.InOrder) hnew.inOrder (fun _ _ _ _ h he => h.effect he)
      frames
  refine ⟨horder, ?_, ?_⟩
  · intro text
    refine ⟨(dispatch_effect t (.line text)).line_gives_no_message horder.pending, ?_⟩
    intro hv
    exact dispatch_dataEnd hv horder.pending
  · intro hended more
    have hafter : s.after (frames ++ more) = t.after more := List.foldl_append
    rw [hafter]
    exact active_after hended more

theorem inOrder_after_delivery_failure :
    let listener : Delivery.Listener Unit :=
      .prepared 1 .anyone none (.error (.io ⟨.storageFull, "disk full"⟩))
    let s : Session PlainLogin (Fanout Unit) :=
      { settings := { maxRecipients := some 1 }
        auth := .over fun user password => user == "u" && password == "p"
        delivery := { listeners := [listener], world := () } }
    let frames := [.line "EHLO a", .line "AUTH PLAIN AHUAcA==", .line "MAIL FROM:<a@b>",
      .line "RCPT TO:<c@d>", .line "DATA", .message (.held [104, 105])]
    s.New ∧ (s.after (frames.take 5)).progress.expectsMessage = true ∧
      (s.after frames).InOrder := by
  intro listener s frames
  have hnew : s.New := ⟨rfl, rfl, rfl⟩
  exact ⟨hnew, by decide +kernel, (inOrder_after hnew frames).1⟩

end Session

end SmtpReceiver
