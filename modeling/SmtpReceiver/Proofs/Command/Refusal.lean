import SmtpReceiver.Proofs.Command.Order

/-!
# Refusals

A frame is *refused* if the code of the reply is 400 or above, or if the delivery handler
rejects the address that it is asked about, whatever code it gives.

A refused line leaves the session as it was (`Effect.unchanged`).  Only the delivery handler was
asked, and may have changed as far as a handler does that rejects.  A line of `AUTH` that is
refused ends the exchange and changes nothing beside the authenticator (`Effect.exchange_over`).
Both are case analyses over the effects: most are no refusals, for their code is below 400.

The end of a message always ends the transaction.  So over listeners the session is afterwards
as `RSET` leaves it (`deliver_resets`).
-/

namespace SmtpReceiver

open Auth (Authenticator Open)
open Delivery (Fanout Handler)
open Framing (Frame)

variable {α δ σ : Type}

/-! ## Handlers that reject -/

namespace Delivery

/-- A handler that rejects an address keeps what a view shows of it. -/
structure Steady [Handler δ] (view : δ → σ) : Prop where
  sender : ∀ {d : δ} {peer : Peer} {address : String} {rejection : Rejection},
    (Handler.sender d peer address).result = .error rejection →
      view (Handler.sender d peer address).next = view d
  recipient : ∀ {d : δ} {peer : Peer} {address : String} {rejection : Rejection},
    (Handler.recipient d peer address).result = .error rejection →
      view (Handler.recipient d peer address).next = view d

variable {ω : Type}

/-- All that the handler over listeners holds itself.  What the listeners remember is theirs. -/
def Fanout.held (f : Fanout ω) : List (Listener ω) × Option String × List (Binding ω) :=
  (f.listeners, f.sender?, f.bindings)

/-- A recipient is rejected if no listener accepts, and then none is bound. -/
theorem Fanout.steady : Steady (Fanout.held (ω := ω)) where
  sender h := by cases h
  recipient := by
    intro f peer address rejection h
    simp only [Handler.recipient, Fanout.recipient] at h ⊢
    split at h
    next hnone => simp only [held, List.isEmpty_iff.1 hnone, List.map_nil, List.append_nil]
    next => cases h

end Delivery

/-- The delivery handler rejects the address in a call. -/
def Call.Rejected [Handler δ] (d : δ) : Call → Prop
  | .sender peer address => ∃ rejection, (Handler.sender d peer address).result = .error rejection
  | .recipient peer address =>
    ∃ rejection, (Handler.recipient d peer address).result = .error rejection
  | _ => False

/-- A frame was refused by the reply, or by the delivery handler in a reply of any code. -/
inductive Refused [Handler δ] (s : Session α δ) (o : Outcome α δ) : Prop where
  | replied (r : Reply) : o.answer = .ok r → 400 ≤ r.code → Refused s o
  | rejected (c : Call) : c ∈ o.calls → c.Rejected s.delivery → Refused s o

/-- Nothing is changed but what the view of the delivery handler does not show. -/
structure Session.Unchanged (view : δ → σ) (s t : Session α δ) : Prop where
  session : t = { s with delivery := t.delivery }
  delivery : view t.delivery = view s.delivery

/-! ## What is not refused -/

section NotRefused

variable [Handler δ] {s : Session α δ} {o : Outcome α δ} {mark : Mark} {asked : Call}
  {t : Turn Delivery.Call δ (Except Delivery.Rejection Unit)}

theorem not_refused {r : Reply} (hanswer : o.answer = .ok r) (hcode : r.code < 400)
    (hcalls : ∀ c ∈ o.calls, ¬ c.Rejected s.delivery) : ¬ Refused s o := by
  rintro (⟨r', hanswer', hcode'⟩ | ⟨c, hc, hrejected⟩)
  · rw [hanswer] at hanswer'
    obtain rfl := Except.ok.inj hanswer'
    exact absurd hcode (Nat.not_lt.2 hcode')
  · exact hcalls c hc hrejected

theorem not_refused_answer {next : Session α δ} {r : Reply} (hcode : r.code < 400) :
    ¬ Refused s (next.answer r) :=
  not_refused rfl hcode (List.forall_mem_nil _)

/-- The authenticator is asked about no address. -/
theorem not_rejected_auth (d : δ) (calls : List Auth.Call) :
    ∀ c ∈ calls.map Call.auth, ¬ c.Rejected d := by
  intro c hc
  obtain ⟨call, -, rfl⟩ := List.mem_map.1 hc
  exact id

/-- A line by which the handler is asked is refused only if the handler rejects what it is asked. -/
theorem Asked.error_of_refused (h : Asked s mark asked t o)
    (hasked : asked.Rejected s.delivery → ∃ rejection, t.result = .error rejection)
    (hrefused : Refused s o) : ∃ rejection, t.result = .error rejection := by
  cases h with
  | refused rejection hresult => exact ⟨rejection, hresult⟩
  | accepted hresult =>
      refine absurd hrefused (not_refused rfl (by decide) ?_)
      intro c hc
      obtain rfl | hc := List.mem_cons.1 hc
      · intro hrejected
        obtain ⟨rejection, herror⟩ := hasked hrejected
        rw [hresult] at herror
        cases herror
      · obtain ⟨call, -, rfl⟩ := List.mem_map.1 hc
        exact id

omit [Handler δ] in
theorem Asked.session_of_error (h : Asked s mark asked t o) {rejection : Delivery.Rejection}
    (hresult : t.result = .error rejection) : o.session = { s with delivery := t.next } := by
  cases h with
  | refused => rfl
  | accepted hok =>
      rw [hresult] at hok
      cases hok

omit [Handler δ] in
/-- A rejected address leaves a steady handler as it was. -/
theorem Asked.unchanged (h : Asked s mark asked t o) {view : δ → σ}
    {rejection : Delivery.Rejection} (hresult : t.result = .error rejection)
    (hview : view t.next = view s.delivery) : s.Unchanged view o.session := by
  rw [h.session_of_error hresult]
  exact ⟨rfl, hview⟩

end NotRefused

/-! ## One line -/

namespace Effect

variable [Authenticator α] [Handler δ] {s : Session α δ} {text : String} {o : Outcome α δ}

/-- A refused line that is not one of `AUTH` leaves the session as it was. -/
theorem unchanged {view : δ → σ} (he : Effect s (.line text) o) (hpending : s.pending = none)
    (hsteady : Delivery.Steady view) (hrefused : Refused s o)
    (hverb : s.verb? (.line text) ≠ some Verb.auth) : s.Unchanged view o.session := by
  cases he with
  | stay => exact ⟨rfl, rfl⟩
  | greet r _ hcode => exact absurd hrefused (not_refused_answer (by rw [hcode]; decide))
  | quit => exact absurd hrefused (not_refused_answer (by decide))
  | reset => exact absurd hrefused (not_refused_answer (by decide))
  | data => exact absurd hrefused (not_refused_answer (by decide))
  | startTls => exact absurd hrefused (not_refused rfl (by decide) (not_rejected_auth _ _))
  | sender address =>
      have hasked := acceptSender_asked s address
      obtain ⟨rejection, hresult⟩ := hasked.error_of_refused id hrefused
      exact hasked.unchanged hresult (hsteady.sender hresult)
  | recipient address =>
      have hasked := acceptRecipient_asked s address
      obtain ⟨rejection, hresult⟩ := hasked.error_of_refused id hrefused
      exact hasked.unchanged hresult (hsteady.recipient hresult)
  | cancel hv => exact absurd hv hverb
  | exchange _ _ hv => exact absurd hv hverb
  | deliver m hm =>
      obtain hframe | ⟨-, hm⟩ := hm
      · cases hframe
      · rw [hpending] at hm
        cases hm

/-- A refused line of `AUTH` ends the exchange, and changes only the authenticator beside. -/
theorem exchange_over (he : Effect s (.line text) o) (horder : s.InOrder) (hrefused : Refused s o)
    (hverb : s.verb? (.line text) = some Verb.auth) :
    o.session
      = { s with
          progress := s.progress.mark (.authenticating false)
          auth := o.session.auth } := by
  have hother : ∀ {verb : String}, s.verb? (.line text) = some verb → verb = Verb.auth := by
    intro verb hv
    exact Option.some.inj (hv.symm.trans hverb)
  cases he with
  | stay r hidle =>
      have hnone : s.progress.authenticating = false := by
        refine Bool.eq_false_iff.2 fun hexchange => ?_
        have hnot := horder.exchange hexchange
        rw [hidle.exchange hexchange] at hnot
        cases hnot
      have hprogress : s.progress.mark (.authenticating false) = s.progress := by
        rw [Progress.mark, ← hnone]
      rw [hprogress]
      rfl
  | cancel => rfl
  | exchange line _ _ hnot =>
      have hexchanged := exchange_exchanged s line
      generalize Command.exchange s line = o at hexchanged hrefused ⊢
      cases hexchanged with
      | challenge =>
          have hcode : ReplyCode.challenge < 400 := by decide
          exact absurd hrefused (not_refused rfl hcode (not_rejected_auth _ _))
      | done => exact absurd hrefused (not_refused rfl (by decide) (not_rejected_auth _ _))
      | fault =>
          have hprogress : (s.progress.mark (.authenticating false)).mark (.authenticated false)
              = s.progress.mark (.authenticating false) := by
            simp only [Progress.mark, ← hnot]
          simp only [hprogress]
  | deliver m hm =>
      obtain hframe | ⟨hv, -⟩ := hm
      · cases hframe
      · exact absurd (hother hv) (by decide)
  | greet r hv =>
      obtain hv | hv := hv
      · exact absurd (hother hv) (by decide)
      · exact absurd (hother hv) (by decide)
  | quit hv | reset hv | startTls hv | sender _ hv | recipient _ hv | data hv =>
      exact absurd (hother hv) (by decide)

end Effect

/-! ## The end of a message -/

theorem CommandTable.command?_rset [Authenticator α] [Handler δ] :
    (builtin (α := α) (δ := δ)).command? Verb.rset = some .rset :=
  command?_of_mem (c := .rset) (by simp [builtinCommands])

/-- However a delivery to listeners went, the session is as after `RSET`. -/
theorem deliver_resets {ω : Type} [Authenticator α] (s : Session α (Fanout ω)) (m : Message)
    (line : String) :
    let next := (CommandTable.builtin.dispatch (.message m) s).session
    let told := { s with delivery := { s.delivery with world := next.delivery.world } }
    next = (CommandTable.builtin.run Verb.rset line told).session := by
  simp only [dispatch_message, CommandTable.run, CommandTable.command?_rset]
  rfl

/-! ## All sessions -/

theorem Session.New.inOrder_of_frames [Authenticator α] [Handler δ] {s : Session α δ} (hnew : s.New)
    (frames : List Frame) : (s.after frames).InOrder :=
  Session.history_induction (P := fun _ s => s.InOrder) hnew.inOrder
    (fun _ _ _ _ h he => h.effect he) frames

/-- A refused line changes nothing, whatever happened before, if the delivery handler keeps what it
holds when it rejects.  The handler over listeners does.  A line of `AUTH` ends the exchange.  After
a message the session is as after `RSET`, but for what the listeners remember. -/
theorem refused_changes_nothing [Authenticator α] (frames : List Frame) :
    (∀ {δ σ : Type} [Handler δ] {view : δ → σ}, Delivery.Steady view →
      ∀ {s : Session α δ}, s.New → ∀ text,
        let t := s.after frames
        let o := CommandTable.builtin.dispatch (.line text) t
        Refused t o →
          (t.verb? (.line text) ≠ some Verb.auth → t.Unchanged view o.session) ∧
          (t.verb? (.line text) = some Verb.auth →
            o.session
              = { t with
                  progress := t.progress.mark (.authenticating false)
                  auth := o.session.auth })) ∧
    (∀ {ω : Type}, Delivery.Steady (Fanout.held (ω := ω))) ∧
    (∀ {ω : Type} (s : Session α (Fanout ω)) (m : Message) (line : String),
      let t := s.after frames
      let next := (CommandTable.builtin.dispatch (.message m) t).session
      let told := { t with delivery := { t.delivery with world := next.delivery.world } }
      next = (CommandTable.builtin.run Verb.rset line told).session) := by
  refine ⟨?_, Fanout.steady, fun s => deliver_resets (s.after frames)⟩
  intro δ σ _ view hsteady s hnew text t o hrefused
  have horder : t.InOrder := hnew.inOrder_of_frames frames
  have he : Effect t (.line text) o := dispatch_effect t (.line text)
  exact ⟨he.unchanged horder.pending hsteady hrefused, he.exchange_over horder hrefused⟩

theorem refused_changes_nothing_unknown_recipient :
    let s : Session Open (Fanout Unit) :=
      { settings := {}, auth := {}, delivery := { listeners := [], world := () } }
    let frames := [.line "HELO a", .line "MAIL FROM:<a@b>"]
    let t := s.after frames
    let o := CommandTable.builtin.dispatch (.line "RCPT TO:<c@d>") t
    t.progress.hasSender = true ∧ o.answer = .ok (.line .badAddress "<c@d> address unknown.") ∧
      t.Unchanged Fanout.held o.session := by
  intro s frames t o
  obtain ⟨hline, hsteady, -⟩ := refused_changes_nothing (α := Open) frames
  have hanswer : o.answer = .ok (.line .badAddress "<c@d> address unknown.") := by decide
  have hrefused : Refused t o := .replied _ hanswer (by decide)
  exact ⟨by decide, hanswer,
    (hline hsteady ⟨rfl, rfl, rfl⟩ "RCPT TO:<c@d>" hrefused).1 (by decide)⟩

end SmtpReceiver
