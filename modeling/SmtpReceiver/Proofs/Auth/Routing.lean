import SmtpReceiver.Proofs.Auth.Visits
import SmtpReceiver.Proofs.Text.Words

/-!
# Which part of a composite gets a line

A composite remembers which of its parts is active.  A router could do without that and look
it up in the past.  A `Passage` is one request and how it was met.  A part *holds* the exchange
if it was given the last line that began one, has answered that line and every line since by a
challenge, and no reset came in between (`Holds`).

`Meets` says by this alone what becomes of a request.  A line that begins an exchange goes to
the first part that offers the mechanism, after the part that holds an exchange was told to
forget it.  Any other line goes to the part that holds the exchange.  A line for which there is
no part is refused.  The composite does that and nothing else, whatever the parts do
(`routes_by_past`).
-/

namespace SmtpReceiver.Auth

open Text

/-! ## Requests -/

/-- What a composite is told. -/
inductive Request where
  /-- To answer a line. -/
  | line (text : String)
  /-- To forget the exchange. -/
  | reset
deriving DecidableEq, Repr

namespace Composite

variable {α : Type} [Authenticator α]

/-- Does as told, and gives the answer if there is one. -/
def serve (c : Composite α) : Request → Turn Call (Composite α) (Option Answer)
  | .line text =>
    let t := Authenticator.answer c text
    ⟨some t.result, t.next, t.calls⟩
  | .reset =>
    let t := Authenticator.reset c
    ⟨none, t.next, t.calls⟩

/-- The composite after requests. -/
def afterAll (c : Composite α) (requests : List Request) : Composite α :=
  requests.foldl (fun c request => (c.serve request).next) c

theorem afterAll_concat (c : Composite α) (requests : List Request) (request : Request) :
    c.afterAll (requests ++ [request]) = ((c.afterAll requests).serve request).next := by
  simp only [afterAll, List.foldl_append, List.foldl_cons, List.foldl_nil]

end Composite

/-! ## The past -/

/-- The line begins an exchange with a mechanism. -/
def Begins (line mechanism : String) : Prop :=
  ∃ verb rest, words line = verb :: rest ∧ sameFold verb "AUTH" = true ∧ mechanism = rest.headD ""

/-- One request and how it was met. -/
inductive Passage where
  /-- A line was given to this part, if to any, and answered so. -/
  | line (text : String) (part? : Option Nat) (answer : Answer)
  /-- The exchange was to be forgotten. -/
  | reset

namespace Passage

def request : Passage → Request
  | line text _ _ => .line text
  | reset => .reset

/-- The exchange that was open goes on. -/
def Prolongs : Passage → Prop
  | line text _ answer => (∀ mechanism, ¬Begins text mechanism) ∧ isChallenge answer = true
  | reset => False

end Passage

/-- The part was given the last line that began an exchange, and every line since was answered by a
challenge. -/
def Holds (past : List Passage) (i : Nat) : Prop :=
  ∃ before text mechanism answer after,
    past = before ++ Passage.line text (some i) answer :: after ∧ Begins text mechanism ∧
      isChallenge answer = true ∧ ∀ p ∈ after, p.Prolongs

section Past

variable {past : List Passage} {text mechanism : String} {part? : Option Nat} {answer : Answer}
  {p : Passage} {i : Nat}

theorem not_holds_nil : ¬Holds [] i := by
  rintro ⟨before, text, mechanism, answer, after, heq, -⟩
  cases before with
  | nil => cases heq
  | cons first rest => cases heq

/-- A passage prolongs the exchange, or begins one, or ends it. -/
theorem holds_concat : Holds (past ++ [p]) i ↔ (Holds past i ∧ p.Prolongs) ∨
    ∃ text mechanism answer, p = .line text (some i) answer ∧ Begins text mechanism ∧
      isChallenge answer = true := by
  constructor
  · rintro ⟨before, text, mechanism, answer, after, heq, hbegins, hchallenge, hafter⟩
    cases after using List.reverseRecOn with
    | nil =>
        obtain ⟨-, heq⟩ := List.append_inj' heq rfl
        exact .inr ⟨text, mechanism, answer, List.singleton_inj.1 heq, hbegins, hchallenge⟩
    | append_singleton after last =>
        rw [← List.cons_append, ← List.append_assoc] at heq
        obtain ⟨rfl, hlast⟩ := List.append_inj' heq rfl
        obtain rfl := List.singleton_inj.1 hlast
        rw [List.forall_mem_append, List.forall_mem_singleton] at hafter
        exact .inl ⟨⟨before, text, mechanism, answer, after, rfl, hbegins, hchallenge, hafter.1⟩,
          hafter.2⟩
  · rintro (⟨⟨before, text, mechanism, answer, after, rfl, hbegins, hchallenge, hafter⟩, hp⟩ |
      ⟨text, mechanism, answer, rfl, hbegins, hchallenge⟩)
    · refine ⟨before, text, mechanism, answer, after ++ [p], by simp, hbegins, hchallenge, ?_⟩
      rw [List.forall_mem_append, List.forall_mem_singleton]
      exact ⟨hafter, hp⟩
    · exact ⟨past, text, mechanism, answer, [], rfl, hbegins, hchallenge, List.forall_mem_nil _⟩

theorem holds_begun (hbegins : Begins text mechanism) :
    Holds (past ++ [.line text part? answer]) i ↔ part? = some i ∧ isChallenge answer = true := by
  rw [holds_concat]
  constructor
  · rintro (⟨-, hno, -⟩ | ⟨_, _, _, ⟨⟩, -, hchallenge⟩)
    · exact absurd hbegins (hno mechanism)
    · exact ⟨rfl, hchallenge⟩
  · rintro ⟨rfl, hchallenge⟩
    exact .inr ⟨text, mechanism, answer, rfl, hbegins, hchallenge⟩

theorem holds_continued (hno : ∀ mechanism, ¬Begins text mechanism) :
    Holds (past ++ [.line text part? answer]) i ↔ Holds past i ∧ isChallenge answer = true := by
  rw [holds_concat]
  constructor
  · rintro (⟨hholds, -, hchallenge⟩ | ⟨_, mechanism, _, ⟨⟩, hbegins, -⟩)
    · exact ⟨hholds, hchallenge⟩
    · exact absurd hbegins (hno mechanism)
  · rintro ⟨hholds, hchallenge⟩
    exact .inl ⟨hholds, hno, hchallenge⟩

theorem not_holds_reset : ¬Holds (past ++ [.reset]) i := by
  rw [holds_concat]
  rintro (⟨-, hno⟩ | ⟨_, _, _, heq, -⟩)
  · exact hno
  · cases heq

end Past

/-! ## The router -/

section Router

variable {α : Type} [Authenticator α]

/-- The authenticator has a mechanism, whatever the case of the letters. -/
def Offers (mechanism : String) (a : α) : Prop :=
  ∃ name ∈ Authenticator.mechanisms a, sameFold name mechanism = true

/-- The first of the parts that has a mechanism. -/
structure FirstOffering (mechanism : String) (parts : List α) (i : Nat) (a : α) : Prop where
  part : parts[i]? = some a
  offers : Offers mechanism a
  first : ∀ j b, j < i → parts[j]? = some b → ¬Offers mechanism b

/-- The part that holds the exchange is told to forget it, if there is one. -/
inductive Forgets (past : List Passage) (parts : List α) : Turn Call (List α) Unit → Prop where
  | told {i : Nat} {a : α} : Holds past i → parts[i]? = some a →
    Forgets past parts ((Authenticator.reset a).lift (parts.set i))
  | nobody : (∀ i, ¬Holds past i) → Forgets past parts ⟨(), parts, []⟩

/-- What is to become of a request. -/
inductive Meets (past : List Passage) (parts : List α) :
    Passage → Turn Call (List α) (Option Answer) → Prop where
  /-- A line begins an exchange with the first part that offers the mechanism. -/
  | begun {text mechanism : String} {f : Turn Call (List α) Unit} {i : Nat} {a : α}
    {t : Turn Call α Answer} : Begins text mechanism → Forgets past parts f →
    FirstOffering mechanism f.next i a → Authenticator.answer a text = t →
    Meets past parts (.line text (some i) t.result)
      ⟨some t.result, f.next.set i t.next, f.calls ++ t.calls⟩
  /-- A line would begin an exchange with a mechanism that no part offers. -/
  | refused {text mechanism : String} {f : Turn Call (List α) Unit} :
    Begins text mechanism → Forgets past parts f → (∀ a ∈ f.next, ¬Offers mechanism a) →
    Meets past parts (.line text none (.error .mechanismMismatch))
      ⟨some (.error .mechanismMismatch), f.next, f.calls⟩
  /-- Any other line goes to the part that holds the exchange. -/
  | continued {text : String} {i : Nat} {a : α} {t : Turn Call α Answer} :
    (∀ mechanism, ¬Begins text mechanism) → Holds past i → parts[i]? = some a →
    Authenticator.answer a text = t →
    Meets past parts (.line text (some i) t.result) ⟨some t.result, parts.set i t.next, t.calls⟩
  /-- Nobody holds the exchange. -/
  | stray {text : String} : (∀ mechanism, ¬Begins text mechanism) → (∀ i, ¬Holds past i) →
    Meets past parts (.line text none (.error .mechanismMismatch))
      ⟨some (.error .mechanismMismatch), parts, []⟩
  | reset {f : Turn Call (List α) Unit} : Forgets past parts f →
    Meets past parts .reset ⟨none, f.next, f.calls⟩

/-- From the parts at first, a past has led to these parts. -/
inductive Led (parts : List α) : List Passage → List α → Prop where
  | start : Led parts [] parts
  | next {past : List Passage} {now : List α} {p : Passage}
    {t : Turn Call (List α) (Option Answer)} : Led parts past now → Meets past now p t →
    Led parts (past ++ [p]) t.next

end Router

/-! ## What the composite looks at -/

section Reading

variable {α : Type} [Authenticator α] {text mechanism : String} {parts : List α} {i : Nat} {a : α}

theorem authLine?_of_begins (h : Begins text mechanism) :
    ∃ rest, authLine? text = some (upper mechanism, rest) := by
  obtain ⟨verb, rest, hwords, hverb, rfl⟩ := h
  exact ⟨rest.tail, by rw [authLine?, hwords]; exact if_pos hverb⟩

theorem begins_of_authLine? {name : String} {rest : List String}
    (h : authLine? text = some (name, rest)) : ∃ mechanism, Begins text mechanism := by
  rw [authLine?] at h
  split at h
  next => cases h
  next verb rest hwords =>
    split at h
    next hverb => exact ⟨_, verb, rest, hwords, hverb, rfl⟩
    next => cases h

theorem authLine?_eq_none : authLine? text = none ↔ ∀ mechanism, ¬Begins text mechanism := by
  constructor
  · intro h mechanism hbegins
    obtain ⟨rest, hsome⟩ := authLine?_of_begins hbegins
    rw [h] at hsome
    cases hsome
  · intro h
    cases hline : authLine? text with
    | none => rfl
    | some p =>
        obtain ⟨mechanism, hbegins⟩ := begins_of_authLine? hline
        exact absurd hbegins (h mechanism)

theorem offers_iff : Composite.offers (upper mechanism) a = true ↔ Offers mechanism a := by
  simp only [Composite.offers, List.any_eq_true, sameFold_upper, Offers]

theorem findIdx?_offers :
    parts.findIdx? (Composite.offers (upper mechanism)) = some i ∧ parts[i]? = some a ↔
      FirstOffering mechanism parts i a := by
  rw [List.findIdx?_eq_some_iff_getElem]
  constructor
  · rintro ⟨⟨hi, hoffers, hfirst⟩, ha⟩
    obtain ⟨_, rfl⟩ := List.getElem?_eq_some_iff.1 ha
    refine ⟨ha, offers_iff.1 hoffers, fun j b hj hb => ?_⟩
    obtain ⟨_, rfl⟩ := List.getElem?_eq_some_iff.1 hb
    exact fun hb => hfirst j hj (offers_iff.2 hb)
  · rintro ⟨ha, hoffers, hfirst⟩
    obtain ⟨hi, rfl⟩ := List.getElem?_eq_some_iff.1 ha
    refine ⟨⟨hi, offers_iff.2 hoffers, fun j hj hb => ?_⟩, ha⟩
    exact hfirst j _ hj (List.getElem?_eq_getElem (hj.trans hi)) (offers_iff.1 hb)

theorem findIdx?_none :
    parts.findIdx? (Composite.offers (upper mechanism)) = none ↔
      ∀ a ∈ parts, ¬Offers mechanism a := by
  rw [List.findIdx?_eq_none_iff]
  exact forall₂_congr fun a _ => by rw [← Bool.not_eq_true, offers_iff]

end Reading

namespace Composite

variable {α : Type} [Authenticator α] {c : Composite α} {text mechanism : String} {i : Nat} {a : α}

/-- The line of a composite that begins an exchange. -/
theorem serve_begins (hbegins : Begins text mechanism) :
    c.serve (.line text) =
      let t := (c.reset.next.activate (upper mechanism)).ask text
      ⟨some t.result, t.next, c.reset.calls ++ t.calls⟩ := by
  obtain ⟨rest, hline⟩ := authLine?_of_begins hbegins
  show (let t := c.answer text; Turn.mk (some t.result) t.next t.calls) = _
  rw [answer, hline]

theorem serve_continues (hno : ∀ mechanism, ¬Begins text mechanism) :
    c.serve (.line text) = ⟨some (c.ask text).result, (c.ask text).next, (c.ask text).calls⟩ := by
  show (let t := c.answer text; Turn.mk (some t.result) t.next t.calls) = _
  rw [answer_of_continues (authLine?_eq_none.2 hno)]

theorem activate_first (h : FirstOffering mechanism c.parts i a) :
    (c.activate (upper mechanism)).activePart? = some (i, a) :=
  activePart?_eq_some.2 (findIdx?_offers.2 h)

theorem activate_none (h : ∀ a ∈ c.parts, ¬Offers mechanism a) :
    c.activate (upper mechanism) = { c with active := none } := by
  rw [activate, findIdx?_none.2 h]

end Composite

/-! ## Both do the same -/

section Same

variable {α : Type} [Authenticator α] {past : List Passage} {c : Composite α}

omit [Authenticator α] in
/-- The composite has kept what the past says. -/
structure Remembers (past : List Passage) (c : Composite α) : Prop where
  holds : ∀ i, Holds past i ↔ c.active = some i
  within : ∀ i, c.active = some i → ∃ a, c.parts[i]? = some a

namespace Remembers

omit [Authenticator α] in
theorem of_none (parts : List α) : Remembers [] (Composite.mk parts none) where
  holds _ := iff_of_false not_holds_nil nofun
  within _ := nofun

omit [Authenticator α] in
theorem activePart? (h : Remembers past c) {i : Nat} {a : α} :
    c.activePart? = some (i, a) ↔ Holds past i ∧ c.parts[i]? = some a := by
  rw [Composite.activePart?_eq_some, h.holds]

omit [Authenticator α] in
theorem activePart?_eq_none (h : Remembers past c) :
    c.activePart? = none ↔ ∀ i, ¬Holds past i := by
  constructor
  · intro hnone i hholds
    have hactive := (h.holds i).1 hholds
    obtain ⟨a, ha⟩ := h.within i hactive
    rw [Composite.activePart?_eq_none hnone hactive] at ha
    cases ha
  · intro hno
    cases hactive : c.activePart? with
    | none => rfl
    | some p => exact absurd (h.activePart?.1 hactive).1 (hno p.1)

theorem forgets (h : Remembers past c) {f : Turn Call (List α) Unit} :
    Forgets past c.parts f ↔ c.reset.lift Composite.parts = f := by
  constructor
  · intro hforgets
    cases hforgets with
    | told hholds ha =>
        rw [Composite.reset_of_active (h.activePart?.2 ⟨hholds, ha⟩)]
        rfl
    | nobody hno =>
        rw [Composite.reset_of_inactive (h.activePart?_eq_none.2 hno)]
        rfl
  · rintro rfl
    cases hactive : c.activePart? with
    | none =>
        rw [Composite.reset_of_inactive hactive]
        exact .nobody (h.activePart?_eq_none.1 hactive)
    | some p =>
        obtain ⟨hholds, ha⟩ := h.activePart?.1 hactive
        rw [Composite.reset_of_active hactive]
        exact .told hholds ha

/-- There is a way to meet each request. -/
theorem exists_meets (h : Remembers past c) (request : Request) :
    ∃ p t, p.request = request ∧ Meets past c.parts p t := by
  have hforgets := h.forgets.2 rfl
  cases request with
  | reset => exact ⟨.reset, _, rfl, .reset hforgets⟩
  | line text =>
      cases hline : authLine? text with
      | none =>
          have hno := authLine?_eq_none.1 hline
          cases hactive : c.activePart? with
          | none => exact ⟨_, _, rfl, .stray hno (h.activePart?_eq_none.1 hactive)⟩
          | some p =>
              obtain ⟨hholds, ha⟩ := h.activePart?.1 hactive
              exact ⟨_, _, rfl, .continued hno hholds ha rfl⟩
      | some p =>
          obtain ⟨mechanism, hbegins⟩ := begins_of_authLine? hline
          cases hfirst : (c.reset.lift Composite.parts).next.findIdx?
              (Composite.offers (upper mechanism)) with
          | none => exact ⟨_, _, rfl, .refused hbegins hforgets (findIdx?_none.1 hfirst)⟩
          | some i =>
              obtain ⟨hi, -⟩ := List.findIdx?_eq_some_iff_getElem.1 hfirst
              have ha := List.getElem?_eq_getElem hi
              exact ⟨_, _, rfl, .begun hbegins hforgets (findIdx?_offers.1 ⟨hfirst, ha⟩) rfl⟩

omit [Authenticator α] in
/-- What is remembered of a line that a part was given. -/
theorem given {text : String} {i : Nat} {a next : α} {answer : Answer}
    (ha : c.parts[i]? = some a)
    (hholds : ∀ j, Holds (past ++ [.line text (some i) answer]) j ↔
      j = i ∧ isChallenge answer = true) :
    Remembers (past ++ [.line text (some i) answer])
      { parts := c.parts.set i next, active := if isChallenge answer then some i else none } where
  holds j := by
    rw [hholds]
    cases isChallenge answer with
    | true => exact ⟨fun h => congrArg some h.1.symm, fun h => ⟨(Option.some.inj h).symm, rfl⟩⟩
    | false => exact iff_of_false (fun h => Bool.false_ne_true h.2) nofun
  within j hj := by
    split at hj
    next =>
      obtain rfl := Option.some.inj hj
      exact ⟨next, List.getElem?_set_self (List.getElem?_eq_some_iff.1 ha).1⟩
    next => cases hj

omit [Authenticator α] in
/-- What is remembered when nobody holds the exchange. -/
theorem nobody {past : List Passage} {c : Composite α} (hno : ∀ i, ¬Holds past i)
    (hactive : c.active = none) : Remembers past c where
  holds i := iff_of_false (hno i) (by rw [hactive]; nofun)
  within i := by rw [hactive]; nofun

/-- The composite meets each request as it should, and remembers how. -/
theorem meets (h : Remembers past c) {p : Passage} {t : Turn Call (List α) (Option Answer)}
    (hmeets : Meets past c.parts p t) :
    (c.serve p.request).lift Composite.parts = t ∧
      Remembers (past ++ [p]) (c.serve p.request).next := by
  cases hmeets with
  | begun hbegins hforgets hfirst hanswer =>
      obtain rfl := h.forgets.1 hforgets
      obtain rfl := hanswer
      simp only [Passage.request, Composite.serve_begins hbegins,
        Composite.ask_of_active (Composite.activate_first hfirst)]
      refine ⟨rfl, given (c := c.reset.next) hfirst.part fun j => ?_⟩
      rw [holds_begun hbegins, Option.some.injEq, eq_comm]
  | refused hbegins hforgets hnone =>
      obtain rfl := h.forgets.1 hforgets
      simp only [Passage.request, Composite.serve_begins hbegins, Composite.activate_none hnone,
        Composite.ask_of_inactive (c := { c.reset.next with active := none }) rfl]
      refine ⟨by rw [List.append_nil]; rfl, nobody (fun i => ?_) rfl⟩
      rw [holds_begun hbegins]
      rintro ⟨⟨⟩, -⟩
  | continued hno hholds ha hanswer =>
      obtain rfl := hanswer
      simp only [Passage.request, Composite.serve_continues hno,
        Composite.ask_of_active (h.activePart?.2 ⟨hholds, ha⟩)]
      refine ⟨rfl, given ha fun j => ?_⟩
      rw [holds_continued hno, h.holds, (h.holds _).1 hholds, Option.some.injEq, eq_comm]
  | stray hno hnobody =>
      simp only [Passage.request, Composite.serve_continues hno,
        Composite.ask_of_inactive (h.activePart?_eq_none.2 hnobody)]
      refine ⟨rfl, fun i => ?_, h.within⟩
      rw [holds_continued hno, ← h.holds]
      exact iff_of_false (fun hi => hnobody i hi.1) (hnobody i)
  | reset hforgets =>
      obtain rfl := h.forgets.1 hforgets
      exact ⟨rfl, nobody (fun _ => not_holds_reset) c.active_reset⟩

end Remembers

variable {parts now : List α}

/-- Whatever a past has led to, the composite has come to as well. -/
theorem Led.remembers (h : Led parts past now) :
    let c := (Composite.mk parts none).afterAll (past.map Passage.request)
    Remembers past c ∧ c.parts = now := by
  induction h with
  | start => exact ⟨.of_none parts, rfl⟩
  | next _ hmeets ih =>
      obtain ⟨hremembers, rfl⟩ := ih
      obtain ⟨hturn, hremembers⟩ := hremembers.meets hmeets
      rw [List.map_append, List.map_singleton, Composite.afterAll_concat]
      exact ⟨hremembers, congrArg Turn.next hturn⟩

/-- Every request can be met as it should, and so there is a past for each list of them. -/
theorem exists_led (parts : List α) (requests : List Request) :
    ∃ past now, Led parts past now ∧ past.map Passage.request = requests := by
  induction requests using List.reverseRecOn with
  | nil => exact ⟨[], parts, .start, rfl⟩
  | append_singleton requests request ih =>
      obtain ⟨past, now, hled, rfl⟩ := ih
      obtain ⟨hremembers, rfl⟩ := hled.remembers
      obtain ⟨p, t, rfl, hmeets⟩ := hremembers.exists_meets request
      exact ⟨past ++ [p], t.next, hled.next hmeets, by rw [List.map_append, List.map_singleton]⟩

end Same

/-! ## Who was given what -/

section Given

/-- The line and the answer to it, if this is what was seen. -/
def Visit.answered? : Visit → Option (String × Answer)
  | answered line answer => some (line, answer)
  | reset => none

/-- The line and the answer to it, if this part was given the line. -/
def Passage.givenTo (k : Nat) : Passage → Option (String × Answer)
  | line text (some i) answer => if i = k then some (text, answer) else none
  | _ => none

variable {α : Type} [Authenticator α] {past : List Passage} {parts now : List (Watched α)}

/-- Each part has seen the lines that it was given, and no others. -/
def Given (past : List Passage) (now : List (Watched α)) : Prop :=
  ∀ k b, now[k]? = some b → b.visits.filterMap Visit.answered? = past.filterMap (Passage.givenTo k)

omit [Authenticator α] in
/-- One part has seen something, which the past gives to it. -/
theorem Given.set {later : List Passage} {i : Nat} {a next : Watched α} (hgiven : Given past now)
    (ha : now[i]? = some a)
    (hnext : next.visits.filterMap Visit.answered? = later.filterMap (Passage.givenTo i))
    (hothers : ∀ k, i ≠ k →
      later.filterMap (Passage.givenTo k) = past.filterMap (Passage.givenTo k)) :
    Given later (now.set i next) := by
  intro k b hb
  by_cases hik : i = k
  · subst hik
    rw [List.getElem?_set_self (List.getElem?_eq_some_iff.1 ha).1] at hb
    obtain rfl := Option.some.inj hb
    exact hnext
  · rw [List.getElem?_set_ne hik] at hb
    rw [hothers k hik]
    exact hgiven k b hb

omit [Authenticator α] in
theorem Given.concat_none {p : Passage} (hgiven : Given past now)
    (hp : ∀ k, p.givenTo k = none) : Given (past ++ [p]) now := by
  intro k b hb
  rw [List.filterMap_append, List.filterMap_cons_none (hp k), List.filterMap_nil, List.append_nil]
  exact hgiven k b hb

theorem Given.concat_line {text : String} {i : Nat} {a : Watched α} (hgiven : Given past now)
    (ha : now[i]? = some a) :
    let t := Authenticator.answer a text
    Given (past ++ [.line text (some i) t.result]) (now.set i t.next) := by
  intro t
  have hgivenTo (k : Nat) : (Passage.line text (some i) t.result).givenTo k
      = if i = k then some (text, t.result) else none := rfl
  refine hgiven.set ha ?_ fun k hik => ?_
  · have hvisits : t.next.visits = a.visits ++ [.answered text t.result] := rfl
    rw [hvisits, List.filterMap_append, List.filterMap_append, hgiven i a ha,
      List.filterMap_cons_some ((hgivenTo i).trans (if_pos rfl))]
    rfl
  · rw [List.filterMap_append, List.filterMap_cons_none ((hgivenTo k).trans (if_neg hik)),
      List.filterMap_nil, List.append_nil]

theorem Forgets.given {f : Turn Call (List (Watched α)) Unit} (h : Forgets past now f)
    (hgiven : Given past now) : Given past f.next := by
  cases h with
  | nobody => exact hgiven
  | @told i a hholds ha =>
      refine hgiven.set ha ?_ fun _ _ => rfl
      have hvisits : (Authenticator.reset a).next.visits = a.visits ++ [.reset] := rfl
      rw [hvisits, List.filterMap_append, hgiven i a ha]
      exact List.append_nil _

theorem Led.given {watched : List α} (h : Led (Composite.watch watched).parts past now) :
    Given past now := by
  induction h with
  | start =>
      intro k b hb
      obtain ⟨a, -, rfl⟩ := List.mem_map.1 (List.mem_of_getElem? hb)
      rfl
  | next _ hmeets ih =>
      cases hmeets with
      | begun _ hforgets hfirst hanswer =>
          obtain rfl := hanswer
          exact (hforgets.given ih).concat_line hfirst.part
      | refused _ hforgets => exact (hforgets.given ih).concat_none fun _ => rfl
      | continued _ _ ha hanswer =>
          obtain rfl := hanswer
          exact ih.concat_line ha
      | stray => exact ih.concat_none fun _ => rfl
      | reset hforgets => exact (hforgets.given ih).concat_none fun _ => rfl

end Given

/-- A composite answers each request as the past says, whatever its parts do.  There is a past for
every list of requests.  After it the parts are in the states that it has led to, and the next
request can be met in exactly one way, which is what the composite does.  The line goes to at most
one part, its answer is given back as it is, and every part has seen the lines that the past gives
to it and no others. -/
theorem routes_by_past {α : Type} [Authenticator α] (parts : List α) :
    (∀ requests, ∃ past now, Led parts past now ∧ past.map Passage.request = requests) ∧
    (∀ past now, Led parts past now →
      let c := (Composite.mk parts none).afterAll (past.map Passage.request)
      c.parts = now ∧ ∀ request turn,
        (∃ p, p.request = request ∧ Meets past now p turn) ↔
          (c.serve request).lift Composite.parts = turn) ∧
    ∀ past now, Led (Composite.watch parts).parts past now →
      Given past ((Composite.watch parts).afterAll (past.map Passage.request)).parts := by
  refine ⟨exists_led parts, fun past now hled => ?_, fun past now hled => ?_⟩
  · obtain ⟨hremembers, rfl⟩ := hled.remembers
    refine ⟨rfl, fun request turn => ⟨?_, ?_⟩⟩
    · rintro ⟨p, rfl, hmeets⟩
      exact (hremembers.meets hmeets).1
    · rintro rfl
      obtain ⟨p, t, rfl, hmeets⟩ := hremembers.exists_meets request
      exact ⟨p, rfl, (hremembers.meets hmeets).1 ▸ hmeets⟩
  · obtain ⟨-, hparts⟩ := hled.remembers
    exact hparts.symm ▸ hled.given

end SmtpReceiver.Auth
