import SmtpReceiver.Delivery.Fanout
import SmtpReceiver.Proofs.Auth.Stages
import SmtpReceiver.Proofs.Command.History

/-!
# What a mechanism gets to see

A mechanism sees the lines that it is given and the resets, and nothing else.  One
that is `Watched` keeps what it saw as a list of `Visit`s, and is the same otherwise
(`Watched.maps_inner`).

`AUTH` has the authenticator forget an exchange that ended in a fault.  An
authenticator that is installed alone is told so at once.  A composite is not, as far
as its parts go.  With the fault it has no active part any more, and so the reset finds
none (`fault_without_reset`).  Only a part that has answered by a challenge is reset,
when the client cancels or begins anew.  A failed exchange leaves nothing behind if the
failing answer itself sees to that, as those of PLAIN and LOGIN do.
-/

namespace SmtpReceiver

open Auth
open Delivery (Fanout Handler)

namespace Auth

/-! ## Authenticators that do the same -/

section Maps

variable {α β : Type} [Authenticator α] [Authenticator β]

/-- The images of authenticators do the same as these. -/
structure Maps (f : α → β) : Prop where
  mechanisms : ∀ a, Authenticator.mechanisms (f a) = Authenticator.mechanisms a
  answer : ∀ a line, Authenticator.answer (f a) line = (Authenticator.answer a line).lift f
  reset : ∀ a, Authenticator.reset (f a) = (Authenticator.reset a).lift f

/-- The composite of the images of the parts. -/
def Composite.map (f : α → β) (c : Composite α) : Composite β :=
  { parts := c.parts.map f, active := c.active }

end Maps

/-! ## Steps of a composite -/

namespace Composite

variable {α : Type} [Authenticator α] {c : Composite α}

/-- The active part with its number. -/
def activePart? (c : Composite α) : Option (Nat × α) :=
  c.active.bind fun i => c.parts[i]?.map fun a => (i, a)

omit [Authenticator α] in
theorem activePart?_eq_some {i : Nat} {a : α} :
    c.activePart? = some (i, a) ↔ c.active = some i ∧ c.parts[i]? = some a := by
  simp only [activePart?, Option.bind_eq_some_iff, Option.map_eq_some_iff, Prod.mk.injEq]
  constructor
  · rintro ⟨j, hj, b, hb, rfl, rfl⟩
    exact ⟨hj, hb⟩
  · rintro ⟨hi, ha⟩
    exact ⟨i, hi, a, ha, rfl, rfl⟩

omit [Authenticator α] in
theorem activePart?_eq_none {i : Nat} (h : c.activePart? = none) (hactive : c.active = some i) :
    c.parts[i]? = none := by
  rw [activePart?, hactive, Option.bind_some] at h
  exact Option.map_eq_none_iff.1 h

theorem reset_of_active {i : Nat} {a : α} (h : c.activePart? = some (i, a)) :
    c.reset = ⟨(), { parts := c.parts.set i (Authenticator.reset a).next },
      (Authenticator.reset a).calls⟩ := by
  rw [activePart?] at h
  rw [reset, h]

theorem reset_of_inactive (h : c.activePart? = none) :
    c.reset = ⟨(), { c with active := none }, []⟩ := by
  rw [activePart?] at h
  rw [reset, h]

theorem ask_of_active {i : Nat} {a : α} (h : c.activePart? = some (i, a)) (line : String) :
    c.ask line
      = let t := Authenticator.answer a line
        ⟨t.result,
          { parts := c.parts.set i t.next
            active := if isChallenge t.result then some i else none },
          t.calls⟩ := by
  rw [activePart?] at h
  rw [ask, h]

theorem ask_of_inactive (h : c.activePart? = none) (line : String) :
    c.ask line = ⟨.error .mechanismMismatch, c, []⟩ := by
  rw [activePart?] at h
  rw [ask, h]

theorem active_reset (c : Composite α) : c.reset.next.active = none := by
  cases h : c.activePart? with
  | none => rw [reset_of_inactive h]
  | some p => rw [reset_of_active h]

theorem answer_of_begins {line mechanism : String} {rest : List String}
    (h : authLine? line = some (mechanism, rest)) :
    (c.answer line).next = ((c.reset.next.activate mechanism).ask line).next ∧
      (c.answer line).result = ((c.reset.next.activate mechanism).ask line).result := by
  rw [answer, h]
  exact ⟨rfl, rfl⟩

theorem answer_of_continues {line : String} (h : authLine? line = none) :
    c.answer line = c.ask line := by
  rw [answer, h]

end Composite

/-! ## Composites that do the same -/

namespace Composite

variable {α β : Type} [Authenticator α] [Authenticator β] {f : α → β}

omit [Authenticator α] [Authenticator β] in
theorem activePart?_map (f : α → β) (c : Composite α) :
    (c.map f).activePart? = c.activePart?.map fun p => (p.1, f p.2) := by
  simp only [activePart?, map]
  cases c.active with
  | none => rfl
  | some i => simp only [Option.bind_some, List.getElem?_map, Option.map_map, Function.comp_def]

theorem reset_map (h : Maps f) (c : Composite α) : (c.map f).reset = c.reset.lift (map f) := by
  cases hactive : c.activePart? with
  | none =>
      rw [reset_of_inactive hactive, reset_of_inactive (by rw [activePart?_map, hactive]; rfl)]
      rfl
  | some p =>
      have hmap : (c.map f).activePart? = some (p.1, f p.2) := by rw [activePart?_map, hactive]; rfl
      rw [reset_of_active hactive, reset_of_active hmap, h.reset]
      simp only [Turn.lift, map, List.map_set]

theorem ask_map (h : Maps f) (c : Composite α) (line : String) :
    (c.map f).ask line = (c.ask line).lift (map f) := by
  cases hactive : c.activePart? with
  | none =>
      rw [ask_of_inactive hactive, ask_of_inactive (by rw [activePart?_map, hactive]; rfl)]
      rfl
  | some p =>
      have hmap : (c.map f).activePart? = some (p.1, f p.2) := by rw [activePart?_map, hactive]; rfl
      rw [ask_of_active hactive, ask_of_active hmap, h.answer]
      simp only [Turn.lift, map, List.map_set]
      rfl

theorem activate_map (h : Maps f) (c : Composite α) (mechanism : String) :
    (c.map f).activate mechanism = (c.activate mechanism).map f := by
  have hoffers : offers mechanism ∘ f = offers mechanism :=
    funext fun a => by simp only [Function.comp, offers, h.mechanisms]
  simp only [activate, map, List.findIdx?_map, hoffers]

/-- A composite of authenticators that do the same does the same. -/
theorem maps_map (h : Maps f) : Maps (map f) where
  mechanisms c := by
    show (c.parts.map f).flatMap _ = _
    rw [List.flatMap_map]
    exact congrArg c.parts.flatMap (funext h.mechanisms)
  answer c line := by
    show (c.map f).answer line = (c.answer line).lift (map f)
    cases hline : authLine? line with
    | none => rw [answer_of_continues hline, answer_of_continues hline, ask_map h]
    | some p =>
        simp only [answer, hline, reset_map h]
        simp only [Turn.lift, activate_map h, ask_map h]
  reset c := reset_map h c

end Composite

/-! ## Visits -/

/-- What a mechanism gets to see. -/
inductive Visit where
  /-- It was given a line, and answered so. -/
  | answered (line : String) (answer : Answer)
  | reset

namespace Visit

/-- The client was asked for more. -/
def challenges : Visit → Bool
  | answered _ a => isChallenge a
  | reset => false

/-- The exchange is over without success. -/
def fails : Visit → Bool
  | answered _ (.error _) => true
  | _ => false

/-- The exchange that was open goes on, or is given up. -/
def Continues : Visit → Prop
  | answered line _ => authLine? line = none
  | reset => True

end Visit

/-- An authenticator that keeps what it saw. -/
structure Watched (α : Type) where
  inner : α
  /-- What it saw, the latest last. -/
  visits : List Visit := []

instance Watched.authenticator {α : Type} [Authenticator α] : Authenticator (Watched α) where
  mechanisms w := Authenticator.mechanisms w.inner
  answer w line :=
    let t := Authenticator.answer w.inner line
    ⟨t.result, ⟨t.next, w.visits ++ [.answered line t.result]⟩, t.calls⟩
  reset w :=
    let t := Authenticator.reset w.inner
    ⟨(), ⟨t.next, w.visits ++ [.reset]⟩, t.calls⟩

/-- Whoever is watched does the same. -/
theorem Watched.maps_inner {α : Type} [Authenticator α] : Maps (Watched.inner (α := α)) :=
  ⟨fun _ => rfl, fun _ _ => rfl, fun _ => rfl⟩

/-- Two visits come one right after the other. -/
def Adjacent (visits : List Visit) (v w : Visit) : Prop := [v, w] <:+: visits

/-- The last visit has left an exchange open. -/
def inExchange (visits : List Visit) : Bool := visits.getLast?.any Visit.challenges

section Visits

variable {visits : List Visit} {v w x : Visit}

theorem adjacent_concat :
    Adjacent (visits ++ [x]) v w ↔ Adjacent visits v w ∨ visits.getLast? = some v ∧ x = w := by
  rw [Adjacent, List.infix_concat_iff, List.suffix_concat_iff, or_comm]
  refine or_congr_right ?_
  constructor
  · rintro (hnil | ⟨t, heq, before, hbefore⟩)
    · cases hnil
    · obtain ⟨rfl, hw⟩ := List.append_inj' (show [v] ++ [w] = t ++ [x] from heq) rfl
      exact ⟨List.getLast?_eq_some_iff.2 ⟨before, hbefore.symm⟩, (List.singleton_inj.1 hw).symm⟩
  · rintro ⟨hlast, rfl⟩
    obtain ⟨before, rfl⟩ := List.getLast?_eq_some_iff.1 hlast
    exact .inr ⟨[v], rfl, before, rfl⟩

theorem inExchange_concat : inExchange (visits ++ [v]) = v.challenges := by
  simp [inExchange]

/-- A reset comes only while an exchange is open.  What comes in an open exchange continues it or
gives it up. -/
structure Orderly (visits : List Visit) : Prop where
  first : visits.head? ≠ some .reset
  reset : ∀ v, Adjacent visits v .reset → v.challenges = true
  challenge : ∀ v w, Adjacent visits v w → v.challenges = true → w.Continues

theorem not_adjacent_nil (v w : Visit) : ¬Adjacent [] v w := by simp [Adjacent]

theorem orderly_nil : Orderly [] where
  first := nofun
  reset v h := absurd h (not_adjacent_nil v _)
  challenge v w h := absurd h (not_adjacent_nil v w)

theorem Orderly.concat (h : Orderly visits) (hreset : v = .reset → inExchange visits = true)
    (hchallenge : inExchange visits = true → v.Continues) : Orderly (visits ++ [v]) where
  first := by
    cases visits with
    | nil => exact fun hfirst => Bool.false_ne_true (hreset (Option.some.inj hfirst))
    | cons w visits => exact h.first
  reset w hadjacent := by
    obtain hbefore | ⟨hlast, hv⟩ := adjacent_concat.1 hadjacent
    · exact h.reset w hbefore
    · simpa [inExchange, hlast] using hreset hv
  challenge w x hadjacent hw := by
    obtain hbefore | ⟨hlast, rfl⟩ := adjacent_concat.1 hadjacent
    · exact h.challenge w x hbefore hw
    · exact hchallenge (by simpa [inExchange, hlast] using hw)

/-- Every fault has been followed by a reset at once. -/
structure Prompt (visits : List Visit) : Prop where
  fault : ∀ v w, Adjacent visits v w → v.fails = true → w = .reset
  last : ∀ v ∈ visits.getLast?, v.fails = false

theorem prompt_nil : Prompt [] where
  fault v w h := absurd h (not_adjacent_nil v w)
  last v hv := by cases hv

theorem Prompt.concat (h : Prompt visits) (hv : v.fails = false) : Prompt (visits ++ [v]) where
  fault w x hadjacent hw := by
    obtain hbefore | ⟨hlast, -⟩ := adjacent_concat.1 hadjacent
    · exact h.fault w x hbefore hw
    · rw [h.last w hlast] at hw
      cases hw
  last w hw := by
    rw [List.getLast?_concat] at hw
    rwa [← Option.some.inj hw]

/-- A fault and the reset behind it. -/
theorem Prompt.concat_reset (h : Prompt visits) (v : Visit) :
    Prompt (visits ++ [v] ++ [.reset]) where
  fault w x hadjacent hw := by
    obtain hadjacent | ⟨-, rfl⟩ := adjacent_concat.1 hadjacent
    · obtain hbefore | ⟨hlast, -⟩ := adjacent_concat.1 hadjacent
      · exact h.fault w x hbefore hw
      · rw [h.last w hlast] at hw
        cases hw
    · rfl
  last w hw := by
    rw [List.getLast?_concat] at hw
    rw [← Option.some.inj hw]
    rfl

end Visits

/-! ## The parts of a composite -/

namespace Composite

variable {α : Type} [Authenticator α]

/-- The parts with nothing seen. -/
def watch (parts : List α) : Composite (Watched α) := { parts := parts.map fun a => { inner := a } }

variable {c : Composite (Watched α)}

/-- Only the active part may be in the middle of an exchange. -/
def Excludes (c : Composite (Watched α)) : Prop :=
  ∀ i b, c.parts[i]? = some b → inExchange b.visits = true → c.active = some i

/-- What is known of the parts between two lines. -/
structure Watches (c : Composite (Watched α)) : Prop where
  orderly : ∀ b ∈ c.parts, Orderly b.visits
  excludes : c.Excludes
  active : ∀ i b, c.active = some i → c.parts[i]? = some b → inExchange b.visits = true

omit [Authenticator α] in
theorem watches_watch (parts : List α) : (watch parts).Watches where
  orderly b hb := by
    obtain ⟨a, -, rfl⟩ := List.mem_map.1 hb
    exact orderly_nil
  excludes i b hb hopen := by
    obtain ⟨a, -, rfl⟩ := List.mem_map.1 (List.mem_of_getElem? hb)
    cases hopen
  active i b hactive := by cases hactive

omit [Authenticator α] in
/-- The active part sees something, and stays active as long as it challenges. -/
theorem watches_set {i : Nat} {a : Watched α} {v : Visit} (next : α)
    (horderly : ∀ b ∈ c.parts, Orderly b.visits) (hexcludes : c.Excludes)
    (hactive : c.activePart? = some (i, a)) (hreset : v = .reset → inExchange a.visits = true)
    (hchallenge : inExchange a.visits = true → v.Continues) :
    Watches { parts := c.parts.set i ⟨next, a.visits ++ [v]⟩
              active := if v.challenges then some i else none } := by
  obtain ⟨hi, ha⟩ := activePart?_eq_some.1 hactive
  have hseen (b : Watched α) (hb : (c.parts.set i ⟨next, a.visits ++ [v]⟩)[i]? = some b) :
      inExchange b.visits = v.challenges := by
    rw [List.getElem?_set_self (List.getElem?_eq_some_iff.1 ha).1] at hb
    rw [← Option.some.inj hb, inExchange_concat]
  refine ⟨fun b hb => ?orderly, fun j b hb hopen => ?excludes, fun j b hj hb => ?active⟩
  case orderly =>
    obtain hb | rfl := List.mem_or_eq_of_mem_set hb
    · exact horderly b hb
    · exact (horderly a (List.mem_of_getElem? ha)).concat hreset hchallenge
  case excludes =>
    by_cases hij : i = j
    · subst hij
      rw [hseen b hb] at hopen
      exact if_pos hopen
    · -- Another part was in no exchange before, and has seen nothing.
      rw [List.getElem?_set_ne hij] at hb
      exact absurd (Option.some.inj (hi.symm.trans (hexcludes j b hb hopen))) hij
  case active =>
    split at hj
    next hchallenges =>
      obtain rfl := Option.some.inj hj
      exact (hseen b hb).trans hchallenges
    next => cases hj

theorem Watches.reset (h : c.Watches) : c.reset.next.Watches := by
  cases hactive : c.activePart? with
  | none =>
      rw [reset_of_inactive hactive]
      refine ⟨h.orderly, fun i b hb hopen => ?_, fun i b hi => by cases hi⟩
      rw [activePart?_eq_none hactive (h.excludes i b hb hopen)] at hb
      cases hb
  | some p =>
      obtain ⟨i, a⟩ := p
      obtain ⟨hi, ha⟩ := activePart?_eq_some.1 hactive
      rw [reset_of_active hactive]
      exact watches_set (v := .reset) _ h.orderly h.excludes hactive (fun _ => h.active i a hi ha)
        fun _ => trivial

/-- No part is in an exchange after a reset, and so when the first line of one comes. -/
theorem Watches.reset_closed (h : c.Watches) {b : Watched α} (hb : b ∈ c.reset.next.parts) :
    inExchange b.visits = false := by
  cases hopen : inExchange b.visits with
  | false => rfl
  | true =>
      obtain ⟨i, hi⟩ := List.getElem?_of_mem hb
      have hactive := h.reset.excludes i b hi hopen
      rw [c.active_reset] at hactive
      cases hactive

/-- A line goes to the active part, and begins an exchange or continues the one that is open. -/
theorem ask_watches {line : String} (horderly : ∀ b ∈ c.parts, Orderly b.visits)
    (hexcludes : c.Excludes)
    (hline : ∀ i b, c.active = some i → c.parts[i]? = some b → inExchange b.visits = true →
      authLine? line = none) : (c.ask line).next.Watches := by
  cases hactive : c.activePart? with
  | none =>
      rw [ask_of_inactive hactive]
      refine ⟨horderly, hexcludes, fun i b hi hb => ?_⟩
      rw [activePart?_eq_none hactive hi] at hb
      cases hb
  | some p =>
      obtain ⟨i, a⟩ := p
      obtain ⟨hi, ha⟩ := activePart?_eq_some.1 hactive
      rw [ask_of_active hactive]
      exact watches_set (v := .answered line _) _ horderly hexcludes hactive nofun (hline i a hi ha)

theorem Watches.answer (h : c.Watches) (line : String) : (c.answer line).next.Watches := by
  cases hline : authLine? line with
  | none =>
      rw [answer_of_continues hline]
      exact ask_watches h.orderly h.excludes fun _ _ _ _ _ => hline
  | some p =>
      rw [(answer_of_begins hline).1]
      refine ask_watches h.reset.orderly ?_ ?_
      · intro i b hb hopen
        rw [h.reset_closed (List.mem_of_getElem? hb)] at hopen
        cases hopen
      · intro i b _ hb hopen
        rw [h.reset_closed (List.mem_of_getElem? hb)] at hopen
        cases hopen

/-- The part that is in an exchange has just asked the client for more. -/
theorem isChallenge_of_ask {line : String} (h : (c.ask line).next.Watches) {b : Watched α}
    (hb : b ∈ (c.ask line).next.parts) (hopen : inExchange b.visits = true) :
    isChallenge (c.ask line).result = true := by
  obtain ⟨i, hi⟩ := List.getElem?_of_mem hb
  have hactive := h.excludes i b hi hopen
  cases hpart : c.activePart? with
  | none =>
      rw [ask_of_inactive hpart] at hactive hi
      rw [activePart?_eq_none hpart hactive] at hi
      cases hi
  | some p =>
      rw [ask_of_active hpart] at hactive ⊢
      dsimp only at hactive
      split at hactive
      next hchallenges => exact hchallenges
      next => cases hactive

theorem isChallenge_of_answer {line : String} (h : (c.answer line).next.Watches) {b : Watched α}
    (hb : b ∈ (c.answer line).next.parts) (hopen : inExchange b.visits = true) :
    isChallenge (c.answer line).result = true := by
  cases hline : authLine? line with
  | none =>
      rw [answer_of_continues hline] at h hb ⊢
      exact isChallenge_of_ask h hb hopen
  | some p =>
      obtain ⟨hnext, hresult⟩ := c.answer_of_begins hline
      rw [hnext] at h hb
      rw [hresult]
      exact isChallenge_of_ask h hb hopen

end Composite

/-! ## What an exchange leaves behind -/

/-- A mechanism is clean after a reset, and after an exchange that failed. -/
structure CleansUp {α : Type} [Authenticator α] (Clean : α → Prop) : Prop where
  reset : ∀ a, Clean (Authenticator.reset a).next
  fault : ∀ a line fault, Clean a ∨ authLine? line = none →
    (Authenticator.answer a line).result = .error fault → Clean (Authenticator.answer a line).next

theorem Login.cleansUp [Text.Base64] : CleansUp fun l : Login => l.user = none where
  reset _ := rfl
  fault l line fault hbefore hfault := by
    show (l.answer line).next.user = none
    replace hfault : (l.answer line).result = .error fault := hfault
    cases hline : authLine? line with
    | some p =>
        have hclean : l.user = none := hbefore.resolve_right (by rw [hline]; nofun)
        simp only [answer, hline] at hfault ⊢
        split
        next => exact hclean
        next =>
          split
          next => exact hclean
          next => rfl
    | none =>
        simp only [answer, hline] at hfault ⊢
        split
        next => rfl
        next hresponse huser => simp [hresponse, huser, loginPrompt] at hfault
        next => split <;> rfl

namespace Composite

variable {α : Type} [Authenticator α] {Clean : α → Prop} {c : Composite (Watched α)}

/-- The parts that are in no exchange are clean. -/
def IsClean (Clean : α → Prop) (c : Composite (Watched α)) : Prop :=
  ∀ b ∈ c.parts, inExchange b.visits = false → Clean b.inner

theorem IsClean.reset (h : c.IsClean Clean) (hcleans : CleansUp Clean) :
    c.reset.next.IsClean Clean := by
  cases hactive : c.activePart? with
  | none => rw [reset_of_inactive hactive]; exact h
  | some p =>
      rw [reset_of_active hactive]
      intro b hb hclosed
      obtain hb | rfl := List.mem_or_eq_of_mem_set hb
      · exact h b hb hclosed
      · exact hcleans.reset _

theorem IsClean.ask (h : c.IsClean Clean) (hcleans : CleansUp Clean) {line : String}
    (hline : ∀ i b, c.active = some i → c.parts[i]? = some b → inExchange b.visits = true →
      authLine? line = none)
    (hresult : ∀ user, (c.ask line).result ≠ .ok (.done user)) :
    (c.ask line).next.IsClean Clean := by
  cases hactive : c.activePart? with
  | none => rw [ask_of_inactive hactive]; exact h
  | some p =>
      obtain ⟨i, a⟩ := p
      obtain ⟨hi, ha⟩ := activePart?_eq_some.1 hactive
      rw [ask_of_active hactive] at hresult ⊢
      intro b hb hclosed
      obtain hb | rfl := List.mem_or_eq_of_mem_set hb
      · exact h b hb hclosed
      · have hbefore : Clean a.inner ∨ authLine? line = none := by
          cases hopen : inExchange a.visits with
          | false => exact .inl (h a (List.mem_of_getElem? ha) hopen)
          | true => exact .inr (hline i a hi ha hopen)
        cases hanswer : (Authenticator.answer a.inner line).result with
        | error fault => exact hcleans.fault a.inner line fault hbefore hanswer
        | ok step =>
            cases step with
            | done user => exact absurd hanswer (hresult user)
            | challenge text =>
                have hlast : inExchange (a.visits ++ [.answered line _]) = false := hclosed
                rw [inExchange_concat] at hlast
                exact absurd (hlast.symm.trans (congrArg isChallenge hanswer)) Bool.false_ne_true

theorem IsClean.answer (h : c.IsClean Clean) (hcleans : CleansUp Clean) (hwatches : c.Watches)
    {line : String} (hresult : ∀ user, (c.answer line).result ≠ .ok (.done user)) :
    (c.answer line).next.IsClean Clean := by
  cases hline : authLine? line with
  | none =>
      rw [answer_of_continues hline] at hresult ⊢
      exact h.ask hcleans (fun _ _ _ _ _ => hline) hresult
  | some p =>
      obtain ⟨hnext, hsame⟩ := c.answer_of_begins hline
      rw [hnext]
      rw [hsame] at hresult
      refine IsClean.ask (c := c.reset.next.activate p.1) (h.reset hcleans) hcleans
        (fun i b _ hb hopen => ?_) hresult
      rw [hwatches.reset_closed (List.mem_of_getElem? hb)] at hopen
      cases hopen

end Composite

end Auth

/-! ## Lines given to `AUTH` -/

namespace Session

variable {α β δ : Type}

/-- The session with another authenticator. -/
def withAuth (s : Session α δ) (auth : β) : Session β δ := { s with auth }

variable [Authenticator α] [Authenticator β]

/-- The session after lines that were all given to `AUTH`. -/
def authAfter (s : Session α δ) (dir : Directory) (lines : List String) : Session α δ :=
  lines.foldl (fun s line => (Command.auth.run dir line s).session) s

/-- What `AUTH` may do with the authenticator and the progress. -/
inductive AuthMoves (a : α) (p : Progress) (line : String) : α → Progress → Prop where
  | stays : AuthMoves a p line a p
  | cancels : p.authenticated = false →
    AuthMoves a p line (Authenticator.reset a).next (p.mark (.authenticating false))
  | asks {text : String} : p.authenticated = false →
    (Authenticator.answer a line).result = .ok (.challenge text) →
    AuthMoves a p line (Authenticator.answer a line).next (p.mark (.authenticating true))
  | letsIn {user : String} : p.authenticated = false →
    (Authenticator.answer a line).result = .ok (.done user) →
    AuthMoves a p line (Authenticator.answer a line).next
      ((p.mark (.authenticating false)).mark (.authenticated true))
  | fails {fault : Fault} : p.authenticated = false →
    (Authenticator.answer a line).result = .error fault →
    AuthMoves a p line (Authenticator.reset (Authenticator.answer a line).next).next
      ((p.mark (.authenticating false)).mark (.authenticated false))

/-- `AUTH` did this with a session. -/
abbrev AuthMovesTo (s : Session α δ) (line : String) (s' : Session α δ) : Prop :=
  AuthMoves s.auth s.progress line s'.auth s'.progress

theorem exchange_moves {s : Session α δ} (h : s.progress.authenticated = false) (line : String) :
    s.AuthMovesTo line (Command.exchange s line).session := by
  simp only [AuthMovesTo, Command.exchange]
  split
  next hresult => exact .asks h hresult
  next hresult => exact .letsIn h hresult
  next hresult => exact .fails h hresult

theorem auth_moves (s : Session α δ) (dir : Directory) (line : String) :
    s.AuthMovesTo line (Command.auth.run dir line s).session := by
  simp only [AuthMovesTo, Command.auth]
  split
  next => exact .stays
  next hnot =>
    have hnot : s.progress.authenticated = false := Bool.eq_false_iff.2 hnot
    split
    next =>
      split
      next => exact .cancels hnot
      next => exact exchange_moves hnot line
    next =>
      unfold Command.beginExchange
      split
      next =>
        split
        next => exact exchange_moves hnot line
        next => exact .stays
      next => exact .stays

/-- What `AUTH` keeps whatever the line, it keeps over all lines. -/
theorem authAfter_keeps {P : α → Progress → Prop} {s : Session α δ} (dir : Directory)
    (hstart : P s.auth s.progress)
    (hstep : ∀ {a b p q line}, P a p → AuthMoves a p line b q → P b q) (lines : List String) :
    P (s.authAfter dir lines).auth (s.authAfter dir lines).progress := by
  induction lines generalizing s with
  | nil => exact hstart
  | cons line lines ih => exact ih (hstep hstart (s.auth_moves dir line))

/-- An authenticator that stands alone is reset after each of its faults. -/
theorem AuthMoves.prompt {w w' : Watched α} {p p' : Progress} {line : String}
    (hmoves : AuthMoves w p line w' p') (h : Prompt w.visits) : Prompt w'.visits := by
  have hanswered {step : Step} (hresult : (Authenticator.answer w line).result = .ok step) :
      Prompt (Authenticator.answer w line).next.visits := by
    refine h.concat ?_
    rw [show (Authenticator.answer w.inner line).result = _ from hresult]
    rfl
  cases hmoves with
  | stays => exact h
  | cancels => exact h.concat rfl
  | asks _ hresult => exact hanswered hresult
  | letsIn _ hresult => exact hanswered hresult
  | fails => exact h.concat_reset _

/-- What is known of a composite in a session. -/
structure Oversees (Clean : α → Prop) (c : Composite (Watched α)) (p : Progress) : Prop where
  watches : c.Watches
  authenticating : p.authenticating = false → ∀ b ∈ c.parts, inExchange b.visits = false
  clean : p.authenticated = false → c.IsClean Clean

theorem AuthMoves.oversees {Clean : α → Prop} (hcleans : CleansUp Clean)
    {c c' : Composite (Watched α)} {p p' : Progress} {line : String}
    (hmoves : AuthMoves c p line c' p') (h : Oversees Clean c p) : Oversees Clean c' p' := by
  have hanswer := h.watches.answer line
  cases hmoves with
  | stays => exact h
  | cancels hnot =>
      exact ⟨h.watches.reset, fun _ b hb => h.watches.reset_closed hb,
        fun _ => (h.clean hnot).reset hcleans⟩
  | asks hnot hresult =>
      refine ⟨hanswer, nofun, fun _ => (h.clean hnot).answer hcleans h.watches ?_⟩
      intro user hdone
      cases hresult.symm.trans hdone
  | letsIn hnot hresult =>
      refine ⟨hanswer, fun _ b hb => ?_, nofun⟩
      cases hopen : inExchange b.visits with
      | false => rfl
      | true =>
          have hchallenge := Composite.isChallenge_of_answer hanswer hb hopen
          rw [show (c.answer line).result = _ from hresult] at hchallenge
          cases hchallenge
  | fails hnot hresult =>
      have hclean : (c.answer line).next.IsClean Clean :=
        (h.clean hnot).answer hcleans h.watches fun user hdone => by cases hresult.symm.trans hdone
      exact ⟨hanswer.reset, fun _ b hb => hanswer.reset_closed hb, fun _ => hclean.reset hcleans⟩

theorem exchange_withAuth {f : α → β} (h : Maps f) (s : Session α δ) (line : String) :
    (Command.exchange (s.withAuth (f s.auth)) line).session
      = let s' := (Command.exchange s line).session
        s'.withAuth (f s'.auth) := by
  simp only [Command.exchange, withAuth, h.answer, Turn.lift]
  cases (Authenticator.answer s.auth line).result with
  | error fault => simp only [h.reset, Turn.lift]
  | ok step => cases step <;> rfl

/-- `AUTH` makes no difference between authenticators that do the same. -/
theorem auth_run_withAuth {f : α → β} (h : Maps f) (s : Session α δ) (dir : Directory)
    (line : String) :
    (Command.auth.run dir line (s.withAuth (f s.auth))).session
      = let s' := (Command.auth.run dir line s).session
        s'.withAuth (f s'.auth) := by
  have hcancel : (Command.cancelExchange (s.withAuth (f s.auth))).session
      = let s' := (Command.cancelExchange s).session
        s'.withAuth (f s'.auth) := by
    simp only [Command.cancelExchange, withAuth, h.reset, Turn.lift]
  have hbegin : (Command.beginExchange (s.withAuth (f s.auth)) line).session
      = let s' := (Command.beginExchange s line).session
        s'.withAuth (f s'.auth) := by
    have hmechanisms : Authenticator.mechanisms (s.withAuth (f s.auth)).auth
        = Authenticator.mechanisms s.auth := h.mechanisms s.auth
    simp only [Command.beginExchange, hmechanisms]
    split
    next =>
      split
      next => exact exchange_withAuth h s line
      next => rfl
    next => rfl
  have hprogress : (s.withAuth (f s.auth)).progress = s.progress := rfl
  simp only [Command.auth, hprogress]
  split
  next => rfl
  next =>
    split
    next =>
      split
      next => exact hcancel
      next => exact exchange_withAuth h s line
    next => exact hbegin

theorem authAfter_withAuth {f : α → β} (h : Maps f) (dir : Directory) (lines : List String)
    (s : Session α δ) :
    (s.withAuth (f s.auth)).authAfter dir lines
      = (s.authAfter dir lines).withAuth (f (s.authAfter dir lines).auth) := by
  induction lines generalizing s with
  | nil => rfl
  | cons line lines ih =>
      simp only [authAfter, List.foldl_cons] at ih ⊢
      rw [auth_run_withAuth h]
      exact ih _

end Session

/-- A mechanism that is installed alone is reset after each of its faults.  A part of a composite
never is, but only while it waits for the client.  It begins clean if its faults leave it clean. -/
theorem fault_without_reset {α β δ : Type} [Authenticator α] {Clean : α → Prop}
    (hcleans : CleansUp Clean) {parts : List α} (hparts : ∀ a ∈ parts, Clean a) (s : Session β δ)
    (dir : Directory) (lines : List String) :
    (∀ a : α, Prompt ((s.withAuth ({ inner := a } : Watched α)).authAfter dir lines).auth.visits) ∧
      let s' := (s.withAuth (Composite.watch parts)).authAfter dir lines
      s'.auth.map Watched.inner
          = ((s.withAuth (Composite.mk parts none)).authAfter dir lines).auth ∧
        ∀ b ∈ s'.auth.parts, Orderly b.visits ∧
          (s'.progress.authenticating = false → inExchange b.visits = false) ∧
          (s'.progress.authenticated = false → inExchange b.visits = false → Clean b.inner) := by
  have hoversees : Session.Oversees Clean (Composite.watch parts) s.progress := by
    refine ⟨Composite.watches_watch parts, fun _ b hb => ?_, fun _ b hb _ => ?_⟩
    · obtain ⟨a, -, rfl⟩ := List.mem_map.1 hb
      rfl
    · obtain ⟨a, ha, rfl⟩ := List.mem_map.1 hb
      exact hparts a ha
  refine ⟨fun a => ?alone, ?same, fun b hb => ?part⟩
  case alone =>
    exact Session.authAfter_keeps (P := fun (w : Watched α) _ => Prompt w.visits) dir prompt_nil
      (fun h hmoves => hmoves.prompt h) lines
  case same =>
    have hmaps := Composite.maps_map (Watched.maps_inner (α := α))
    have hstart : (Composite.watch parts).map Watched.inner = Composite.mk parts none := by
      simp [Composite.watch, Composite.map, Function.comp_def]
    have h := Session.authAfter_withAuth hmaps dir lines (s.withAuth (Composite.watch parts))
    rw [← hstart]
    exact (congrArg Session.auth h).symm
  case part =>
    have hlater := Session.authAfter_keeps (P := Session.Oversees Clean)
      (s := s.withAuth (Composite.watch parts)) dir hoversees
      (fun h hmoves => hmoves.oversees hcleans h) lines
    exact ⟨hlater.watches.orderly b hb, fun hnot => hlater.authenticating hnot b hb,
      fun hnot => hlater.clean hnot b hb⟩

theorem fault_without_reset_login :
    let login : Login := { validator := fun _ _ => false }
    let s : Session Open (Fanout Unit) :=
      { settings := {}, auth := {}, delivery := { listeners := [], world := () } }
    (∀ a ∈ [login], a.user = none) ∧
      let s' := (s.withAuth (Composite.watch [login])).authAfter ⟨[], []⟩ ["AUTH LOGIN", "!"]
      ∀ b ∈ s'.auth.parts, b.inner.user = none := by
  intro login s
  have hparts : ∀ a ∈ [login], a.user = none := by simp [login]
  refine ⟨hparts, fun b hb => ?_⟩
  have h := (fault_without_reset Login.cleansUp hparts s ⟨[], []⟩ ["AUTH LOGIN", "!"]).2.2 b hb
  exact h.2.2 (by decide +kernel) (h.2.1 (by decide +kernel))

/-- The same mechanism is reset after each fault, or never. -/
theorem composite_withholds_reset :
    let stub : Scripted :=
      { name := "s", mechanisms := ["X"], script := [.error .failed, .error .failed] }
    let alone : Session Scripted (Fanout Unit) :=
      { settings := {}, auth := stub, delivery := { listeners := [], world := () } }
    let frames := [.line "AUTH X", .line "AUTH X"]
    (alone.log frames).map (·.outcome.calls)
        = [[.auth (.mechanism "s" "AUTH X"), .auth (.mechanismReset "s")],
          [.auth (.mechanism "s" "AUTH X"), .auth (.mechanismReset "s")]] ∧
      ((alone.withAuth (Composite.mk [stub] none)).log frames).map (·.outcome.calls)
        = [[.auth (.mechanism "s" "AUTH X")], [.auth (.mechanism "s" "AUTH X")]] := by
  decide +kernel

end SmtpReceiver
