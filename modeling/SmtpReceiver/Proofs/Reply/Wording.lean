import SmtpReceiver.Auth.Composite
import SmtpReceiver.Command.HelpText
import SmtpReceiver.Proofs.Address.Parts
import SmtpReceiver.Proofs.Delivery.Sharing
import SmtpReceiver.Proofs.Reply.Reading

/-!
# The words of collaborators

Not all of a reply is worded by the command that gives it.  A challenge comes from the
authenticator, a refusal from the delivery handler, help texts and failures from
elsewhere.  A collaborator is *legible* if no CRLF stands in what it has clients told, and
*breakless* if neither a CR nor an LF does.

The mechanisms of the receiver are breakless in every state.  The handler over listeners
is as long as its listeners are, those it has bound included.  It names the recipient
it refuses, but that is an address, and no CR and no LF can stand in one
(`Address.solid`).
-/

namespace SmtpReceiver

open Text (Base64 LawfulBase64 Solid Unbroken)

/-! ## Replies of one line -/

namespace Reply

variable {code : ReplyCode} {text : String}

theorem readable_line (h : Unbroken text.toList) : (line code text).Readable where
  lines := List.cons_ne_nil _ _
  unbroken := List.forall_mem_singleton.2 h

theorem readable_solid (h : Solid text.toList) : (line code text).Readable :=
  readable_line h.unbroken

end Reply

theorem Failure.readable_reply (f : Failure) : f.reply.Readable := by
  cases f with
  | lineTooLong length =>
      have hlength : Solid (toString length).toList := Reply.solid_codeText length
      exact Reply.readable_solid (Text.solid_append (Text.solid_ofList (by decide)) hlength)
  | io | tls | config | delivery | protocol =>
      exact Reply.readable_solid (Text.solid_ofList (by decide))

/-! ## Addresses -/

/-- No CR and no LF can stand in an address. -/
theorem Address.solid (a : Address) : Solid a.text.toList :=
  Text.solid_of_not_blank fun c hc => (harmless_of_isAddress a.wellFormed c hc).not_blank

/-! ## Help texts -/

/-- Neither a CR nor an LF stands in the name, and no CR in the rest.  An LF ends a line there. -/
structure HelpText.Breakless (h : HelpText) : Prop where
  name : Solid h.name.toList
  arguments : '\r' ∉ h.arguments.toList
  description : '\r' ∉ h.description.toList

theorem HelpText.Breakless.usage {h : HelpText} (hh : h.Breakless) : Solid h.usage.toList := by
  unfold HelpText.usage
  split
  next => exact hh.name
  next first rest hlines =>
    split
    next => exact hh.name
    next =>
      have hfirst : first ∈ Text.lines h.arguments := hlines ▸ List.mem_cons_self
      have htrim : Solid (Text.trim first).toList :=
        (Text.solid_of_mem_lines hh.arguments hfirst).part (Text.trim_part first)
      exact Text.solid_append (Text.solid_append hh.name (Text.solid_ofList (by decide))) htrim

theorem HelpText.Breakless.reply {h : HelpText} (hh : h.Breakless) :
    ∀ l ∈ h.reply.lines, Solid l.toList := by
  have hindent {s : String} (hcr : '\r' ∉ s.toList) :
      ∀ line ∈ Text.lines s, Solid (indent line).toList := fun line hline =>
    Text.solid_append (Text.solid_ofList (by decide))
      ((Text.solid_of_mem_lines hcr hline).part (Text.trim_part line))
  simp only [HelpText.reply, List.forall_mem_append, List.forall_mem_singleton,
    List.forall_mem_map]
  refine ⟨⟨⟨hh.usage, hindent hh.description⟩, fun line hline => ?_⟩, ?_⟩
  · exact hindent hh.arguments line (List.mem_of_mem_tail hline)
  · exact Text.solid_append (Text.solid_append (Text.solid_ofList (by decide)) hh.name)
      (Text.solid_ofList (by decide))

/-- The texts of a table are breakless, and so are the names under which it has them. -/
def HelpTable.Breakless (t : HelpTable) : Prop :=
  ∀ e ∈ t, Solid e.1.toList ∧ e.2.Breakless

/-! ## Authenticators -/

namespace Auth

open Authenticator in
/-- No CRLF stands in a challenge, and neither a CR nor an LF in the name of a mechanism. -/
structure Legible (α : Type) [Authenticator α] : Prop where
  challenge : ∀ {a : α} {line text : String}, (answer a line).result = .ok (.challenge text) →
    Unbroken text.toList
  mechanisms : ∀ a : α, ∀ name ∈ mechanisms a, Solid name.toList

open Authenticator in
/-- Neither a CR nor an LF stands in a challenge or in the name of a mechanism. -/
structure Breakless (α : Type) [Authenticator α] : Prop where
  challenge : ∀ {a : α} {line text : String}, (answer a line).result = .ok (.challenge text) →
    Solid text.toList
  mechanisms : ∀ a : α, ∀ name ∈ mechanisms a, Solid name.toList

theorem Open.breakless : Breakless Open where
  challenge := nofun
  mechanisms _ := nofun

theorem Plain.check_ne_challenge [Base64] (p : Plain) (response text : String) :
    (p.check response).result ≠ .ok (.challenge text) := by
  unfold check
  split
  next => nofun
  next =>
    split
    next => nofun
    next => nofun

theorem Plain.breakless [Base64] : Breakless Plain where
  challenge := by
    intro p line text h
    have hempty : text = "" := by
      simp only [Authenticator.answer, answer] at h
      split at h
      next =>
        split at h
        next => cases h
        next =>
          split at h
          next => exact absurd h (p.check_ne_challenge _ _)
          next => exact (Step.challenge.inj (Except.ok.inj h)).symm
      next => exact absurd h (p.check_ne_challenge _ _)
    rw [hempty]
    exact Text.solid_ofList (by decide)
  mechanisms _ := List.forall_mem_singleton.2 (Text.solid_ofList (by decide))

section Base64

variable [Base64] [LawfulBase64]

theorem solid_of_loginPrompt {prompt text : String}
    (h : loginPrompt prompt = .ok (.challenge text)) : Solid text.toList := by
  obtain rfl := Step.challenge.inj (Except.ok.inj h)
  rw [LawfulBase64.encode_eq]
  exact Text.solid_ofList (Text.solid_of_not_blank (Text.isBlank_of_mem_base64Chars _))

theorem Login.breakless : Breakless Login where
  challenge := by
    intro l line text h
    simp only [Authenticator.answer, answer] at h
    split at h
    next =>
      split at h
      next => cases h
      next =>
        split at h
        next => cases h
        next => exact solid_of_loginPrompt h
    next =>
      split at h
      next => cases h
      next => exact solid_of_loginPrompt h
      next =>
        split at h
        next => cases h
        next => cases h
  mechanisms _ := List.forall_mem_singleton.2 (Text.solid_ofList (by decide))

end Base64

section Parts

variable {α β : Type} [Authenticator α] [Authenticator β]

theorem Breakless.legible (h : Breakless α) : Legible α where
  challenge hresult := (h.challenge hresult).unbroken
  mechanisms := h.mechanisms

theorem Breakless.sum (hα : Breakless α) (hβ : Breakless β) : Breakless (α ⊕ β) where
  challenge := by
    intro a line text h
    cases a with
    | inl a => exact hα.challenge h
    | inr b => exact hβ.challenge h
  mechanisms a := by
    cases a with
    | inl a => exact hα.mechanisms a
    | inr b => exact hβ.mechanisms b

theorem Breakless.ask (hα : Breakless α) {c : Composite α} {line text : String}
    (h : (c.ask line).result = .ok (.challenge text)) : Solid text.toList := by
  unfold Composite.ask at h
  split at h
  next => exact hα.challenge h
  next => cases h

/-- What a composite has clients told are the words of its parts. -/
theorem Breakless.composite (hα : Breakless α) : Breakless (Composite α) where
  challenge := by
    intro c line text h
    simp only [Authenticator.answer, Composite.answer] at h
    split at h
    next => exact hα.ask h
    next => exact hα.ask h
  mechanisms c name hname := by
    obtain ⟨a, -, hname⟩ := List.mem_flatMap.1 hname
    exact hα.mechanisms a name hname

end Parts

/-- What the receiver comes with is legible. -/
theorem legible_standard [Base64] [LawfulBase64] : Legible (Open ⊕ PlainLogin) :=
  (Open.breakless.sum (Plain.breakless.sum Login.breakless).composite).legible

end Auth

/-! ## Delivery handlers -/

namespace Delivery

open Handler in
/-- No CRLF stands in a refusal, as long as a property of the handler is kept. -/
structure Legible {δ : Type} [Handler δ] (P : δ → Prop) : Prop where
  sender : ∀ {d : δ} (peer : Peer) (a : Address), P d → P (sender d peer a.text).next ∧
    ∀ rejection, (sender d peer a.text).result = .error rejection → Unbroken rejection.text.toList
  recipient : ∀ {d : δ} (peer : Peer) (a : Address), P d → P (recipient d peer a.text).next ∧
    ∀ rejection, (recipient d peer a.text).result = .error rejection →
      Unbroken rejection.text.toList
  message : ∀ {d : δ} (peer : Peer) (m : Message), P d → P (message d peer m).next ∧
    ∀ rejection, (message d peer m).result = .error (.rejected rejection) →
      Unbroken rejection.text.toList
  reset : ∀ {d : δ}, P d → P (reset d)

variable {ω : Type}

/-- No CRLF stands in a text by which a listener refuses a message. -/
def Listener.Legible (l : Listener ω) : Prop :=
  ∀ peer sender recipient bytes world rejection,
    (l.outcome peer sender recipient bytes world).1 = .error (.rejected rejection) →
      Unbroken rejection.text.toList

namespace Fanout

/-- The listeners are legible, also those that are bound. -/
structure HasLegible (f : Fanout ω) : Prop where
  listeners : ∀ l ∈ f.listeners, l.Legible
  bindings : ∀ b ∈ f.bindings, b.listener.Legible

theorem askAll_subset (peer : Peer) (sender recipient : String) (ls : List (Listener ω)) :
    ∀ world : ω, (askAll peer sender recipient ls world).result ⊆ ls := by
  induction ls with
  | nil => intro world; exact List.Subset.refl _
  | cons l ls ih =>
      intro world
      have hrest := ih (l.ask peer sender recipient world).next
      simp only [askAll]
      split
      next => exact List.cons_subset_cons l hrest
      next => exact List.subset_cons_of_subset l hrest

theorem deliver_rejected {peer : Peer} {sender : String} {m : Message} {rejection : Rejection}
    {bs : List (Binding ω)} (hbs : ∀ b ∈ bs, b.listener.Legible) : ∀ {world : ω},
    (deliver peer sender m bs world).result = .error (.rejected rejection) →
      Unbroken rejection.text.toList := by
  simp only [deliver_eq_apart]
  induction bs with
  | nil => nofun
  | cons b bs ih =>
      intro world h
      obtain ⟨hb, hbs⟩ := List.forall_mem_cons.1 hbs
      rw [deliverApart] at h
      split at h
      next => exact hb _ _ _ _ _ _ h
      next => exact ih hbs h

/-- A refusal of a recipient quotes an address, and no more. -/
theorem recipient_rejected {f : Fanout ω} {peer : Peer} {a : Address} {rejection : Rejection}
    (h : (f.recipient peer a.text).result = .error rejection) : Solid rejection.text.toList := by
  simp only [recipient] at h
  split at h
  next =>
    obtain rfl := Except.error.inj h
    exact Text.solid_append (Text.solid_append (Text.solid_ofList (by decide)) a.solid)
      (Text.solid_ofList (by decide))
  next => cases h

theorem legible : Legible (HasLegible (ω := ω)) where
  sender _ _ h := ⟨⟨h.listeners, h.bindings⟩, nofun⟩
  recipient := by
    intro f peer a h
    refine ⟨⟨h.listeners, ?_⟩, ?_⟩
    · intro b hb
      obtain hb | hb := List.mem_append.1 hb
      · exact h.bindings b hb
      · obtain ⟨l, hl, rfl⟩ := List.mem_map.1 hb
        exact h.listeners l (askAll_subset _ _ _ _ _ hl)
    · exact fun rejection hrefused => (recipient_rejected hrefused).unbroken
  message peer m h :=
    ⟨⟨h.listeners, h.bindings⟩, fun _ hrefused => deliver_rejected h.bindings hrefused⟩
  reset h := ⟨h.listeners, nofun⟩

end Fanout

end Delivery

end SmtpReceiver
