import Mathlib.Data.List.Induction
import Mathlib.Data.Set.Card
import SmtpReceiver.Server

/-!
# How many connections are admitted

Connections enter and leave in any order.  A connection is `Held` from the move by
which it enters until it leaves, and an admission that went through these moves is
`Counted`.  Its count is the number of those that are held, and the place of each is
that number at its entry.

A place tells of a moment in the past, and two connections may hold the same one.  So
the count alone does not bound those that were admitted.  What every move keeps is, for
all limits together, that no more than the limit hold a place up to it.  A newcomer gets
such a place only while fewer than that are held at all, whatever their places.

The connections of a server are held by its admission, so the bound is one on those
that are not refused (`admission_counts`).
-/

namespace SmtpReceiver

open Auth (Authenticator)
open Delivery (Fanout Roster)

namespace Admission

/-! ## Moves -/

/-- What a connection does to an admission. -/
inductive Move where
  /-- The next connection takes a place. -/
  | enter
  /-- The connection of a number gives its place back. -/
  | leave (i : Nat)
deriving DecidableEq, Repr

def move (a : Admission) : Move → Admission
  | .enter => a.enter.2
  | .leave i => a.leave i

/-- The admission after moves, first to last. -/
def after (moves : List Move) : Admission := moves.foldl move {}

/-- A connection is held from its entry until it leaves. -/
inductive Held : List Move → Nat → Prop where
  | entered (moves : List Move) : Held (moves ++ [.enter]) (moves.count .enter)
  | stays {moves : List Move} {i : Nat} {m : Move} :
    Held moves i → m ≠ .leave i → Held (moves ++ [m]) i

/-- The connections that are held after moves. -/
def held (moves : List Move) : Set Nat := { i | Held moves i }

/-- Those of them that a limit on connections does not refuse. -/
def admitted (limit : Nat) (moves : List Move) (a : Admission) : Set Nat :=
  { i ∈ held moves | isOverCapacity (some limit) (a.place? i) = false }

/-- What an admission knows of the moves that it went through. -/
structure Counted (moves : List Move) (a : Admission) : Prop where
  live : a.live = (held moves).ncard
  /-- Whoever leaves was counted. -/
  leave : ∀ i ∈ held moves, (a.leave i).live + 1 = a.live
  /-- A place is the number of those held at its entry, itself included. -/
  place : ∀ before later, moves = before ++ .enter :: later → before.count .enter ∈ held moves →
    a.place? (before.count .enter) = some (held (before ++ [.enter])).ncard
  admitted : ∀ limit, (admitted limit moves a).ncard ≤ limit
  /-- Those that are refused count as well. -/
  refused : ∀ limit,
    (Admission.admitted limit moves a).ncard + (held moves \ Admission.admitted limit moves a).ncard
      = a.live

/-! ## One move -/

section Move

variable {a : Admission} {moves : List Move} {m : Move} {i j : Nat}

theorem after_concat (moves : List Move) (m : Move) :
    after (moves ++ [m]) = (after moves).move m := by
  simp only [after, List.foldl_append, List.foldl_cons, List.foldl_nil]

theorem held_concat :
    Held (moves ++ [m]) i ↔
      m = .enter ∧ i = moves.count .enter ∨ Held moves i ∧ m ≠ .leave i := by
  constructor
  · intro h
    generalize hall : moves ++ [m] = all at h
    cases h with
    | entered before =>
        obtain ⟨rfl, hm⟩ := List.append_inj' hall rfl
        exact .inl ⟨List.singleton_inj.1 hm, rfl⟩
    | stays hheld hne =>
        obtain ⟨rfl, hm⟩ := List.append_inj' hall rfl
        rw [List.singleton_inj.1 hm]
        exact .inr ⟨hheld, hne⟩
  · rintro (⟨rfl, rfl⟩ | ⟨hheld, hne⟩)
    · exact .entered moves
    · exact .stays hheld hne

theorem held_enter (moves : List Move) :
    held (moves ++ [.enter]) = insert (moves.count .enter) (held moves) := by
  ext i
  simp [held, held_concat]

theorem held_leave (moves : List Move) (i : Nat) :
    held (moves ++ [.leave i]) = held moves \ {i} := by
  ext j
  simp [held, held_concat, eq_comm]

theorem Held.lt (h : Held moves i) : i < moves.count .enter := by
  induction h with
  | entered moves => simp
  | stays _ _ ih =>
      rw [List.count_append]
      exact Nat.lt_of_lt_of_le ih (Nat.le_add_right _ _)

theorem finite_held (moves : List Move) : (held moves).Finite :=
  (Set.finite_lt_nat (moves.count Move.enter)).subset fun _ => Held.lt

theorem place?_enter (a : Admission) (i : Nat) :
    a.enter.2.place? i = if i = a.places.length then some (a.live + 1) else a.place? i := by
  simp only [enter, place?, List.getElem?_append]
  split
  next hlt => rw [if_neg (Nat.ne_of_lt hlt)]
  next hle =>
    split
    next heq => simp [heq]
    next hne =>
      have hlt : a.places.length < i := by omega
      simp [List.getElem?_eq_none (Nat.le_of_lt hlt), Nat.sub_ne_zero_of_lt hlt]

theorem places_leave (a : Admission) (i : Nat) : (a.leave i).places = a.places.set i none := by
  unfold leave
  split
  next n hplace => rfl
  next hplace =>
    apply List.ext_getElem?
    intro j
    rw [List.getElem?_set]
    split
    next heq =>
      subst heq
      cases hseat : a.places[i]? with
      | none => simp [List.getElem?_eq_none_iff.1 hseat]
      | some seat =>
          rw [place?, hseat] at hplace
          simp [(List.getElem?_eq_some_iff.1 hseat).1, show seat = none from hplace]
    next hne => rfl

theorem place?_leave (a : Admission) (i j : Nat) :
    (a.leave i).place? j = if j = i then none else a.place? j := by
  rw [place?, places_leave, List.getElem?_set]
  split
  next heq =>
    rw [if_pos heq.symm]
    split <;> rfl
  next hne => rw [if_neg (Ne.symm hne), place?]

theorem live_leave (a : Admission) (i : Nat) :
    (a.leave i).live = if (a.place? i).isSome then a.live - 1 else a.live := by
  unfold leave
  split
  next n hplace => simp [hplace]
  next hplace => simp [hplace]

end Move

/-! ## All moves -/

/-- What every move keeps. -/
structure Kept (moves : List Move) (a : Admission) : Prop where
  number : a.places.length = moves.count .enter
  held : ∀ i, (a.place? i).isSome ↔ i ∈ Admission.held moves
  live : a.live = (Admission.held moves).ncard
  /-- For every limit, no more than so many hold a place up to it. -/
  within : ∀ limit, { i | ∃ n ∈ a.place? i, n ≤ limit }.ncard ≤ limit

section Kept

variable {a : Admission} {moves : List Move}

theorem Kept.upTo_subset (h : Kept moves a) (limit : Nat) :
    { i | ∃ n ∈ a.place? i, n ≤ limit } ⊆ Admission.held moves := by
  rintro i ⟨n, hplace, -⟩
  exact (h.held i).1 (Option.isSome_of_mem hplace)

theorem kept_nil : Kept [] {} where
  number := rfl
  held i := by
    have hnone : ¬ Held [] i := fun h => Nat.not_lt_zero i h.lt
    simp [place?, Admission.held, hnone]
  live := by
    have hnone : Admission.held [] = ∅ :=
      Set.eq_empty_of_forall_notMem fun i h => Nat.not_lt_zero i h.lt
    rw [hnone, Set.ncard_empty]
  within limit := by simp [place?]

theorem Kept.enter (h : Kept moves a) : Kept (moves ++ [.enter]) a.enter.2 := by
  have hnew : moves.count .enter ∉ Admission.held moves := fun h => Nat.lt_irrefl _ h.lt
  have hheld : ∀ i, (a.enter.2.place? i).isSome ↔ i ∈ Admission.held (moves ++ [.enter]) := by
    intro i
    rw [place?_enter, held_enter, Set.mem_insert_iff, ← h.held, h.number]
    split
    next heq => simp [heq]
    next hne => simp [hne]
  have hlive : a.enter.2.live = (Admission.held (moves ++ [.enter])).ncard := by
    rw [held_enter, Set.ncard_insert_of_notMem hnew (finite_held moves), ← h.live]
    rfl
  refine ⟨?_, hheld, hlive, fun limit => ?_⟩
  · show (a.places ++ [_]).length = _
    rw [List.length_append, List.count_append, h.number]
    rfl
  · by_cases hroom : a.live + 1 ≤ limit
    · -- All that are held are no more than the limit.
      have hsub :
          { i | ∃ n ∈ a.enter.2.place? i, n ≤ limit } ⊆ Admission.held (moves ++ [.enter]) := by
        rintro i ⟨n, hplace, -⟩
        exact (hheld i).1 (Option.isSome_of_mem hplace)
      have hcard := Set.ncard_le_ncard hsub (finite_held _)
      rw [← hlive] at hcard
      exact hcard.trans hroom
    · -- The newcomer has a place above the limit.
      refine (Set.ncard_le_ncard ?_ ((finite_held moves).subset (h.upTo_subset limit))).trans
        (h.within limit)
      rintro i ⟨n, hplace, hle⟩
      rw [place?_enter] at hplace
      split at hplace
      next heq => exact absurd hle (Option.some.inj hplace ▸ hroom)
      next hne => exact ⟨n, hplace, hle⟩

theorem Kept.live_leave (h : Kept moves a) (i : Nat) :
    (a.leave i).live = (Admission.held (moves ++ [.leave i])).ncard := by
  rw [Admission.live_leave, held_leave]
  split
  next hsome =>
    rw [Set.ncard_sdiff_singleton_of_mem ((h.held i).1 hsome), h.live]
  next hnone =>
    rw [Set.sdiff_singleton_eq_self fun hmem => hnone ((h.held i).2 hmem), h.live]

theorem Kept.leave (h : Kept moves a) (i : Nat) : Kept (moves ++ [.leave i]) (a.leave i) where
  number := by
    rw [places_leave, List.length_set, h.number, List.count_append]
    rfl
  held j := by
    rw [place?_leave, held_leave, Set.mem_sdiff, Set.mem_singleton_iff, ← h.held]
    split
    next heq => simp [heq]
    next hne => simp [hne]
  live := h.live_leave i
  within limit := by
    refine (Set.ncard_le_ncard ?_ ((finite_held moves).subset (h.upTo_subset limit))).trans
      (h.within limit)
    rintro j ⟨n, hplace, hle⟩
    rw [place?_leave] at hplace
    split at hplace
    next heq => cases hplace
    next hne => exact ⟨n, hplace, hle⟩

theorem Kept.move (h : Kept moves a) (m : Move) : Kept (moves ++ [m]) (a.move m) := by
  cases m with
  | enter => exact h.enter
  | leave i => exact h.leave i

theorem kept_after (moves : List Move) : Kept moves (after moves) := by
  induction moves using List.reverseRecOn with
  | nil => exact kept_nil
  | append_singleton moves m ih =>
      rw [after_concat]
      exact ih.move m

/-- A place does not change while it is held. -/
theorem place?_after (before later : List Move)
    (hheld : before.count .enter ∈ Admission.held (before ++ .enter :: later)) :
    (after (before ++ .enter :: later)).place? (before.count .enter)
      = some (Admission.held (before ++ [.enter])).ncard := by
  induction later using List.reverseRecOn with
  | nil =>
      have hkept := kept_after before
      rw [after_concat, ← hkept.enter.live, ← hkept.number]
      exact (place?_enter _ _).trans (if_pos rfl)
  | append_singleton later m ih =>
      have hcons : before ++ .enter :: (later ++ [m]) = before ++ .enter :: later ++ [m] := by simp
      rw [hcons] at hheld ⊢
      obtain ⟨-, hnumber⟩ | ⟨hstill, hne⟩ := held_concat.1 hheld
      · rw [List.count_append, List.count_cons_self] at hnumber
        omega
      · rw [after_concat, ← ih hstill]
        cases m with
        | enter =>
            have hlt := hstill.lt
            rw [← (kept_after (before ++ .enter :: later)).number] at hlt
            exact (place?_enter _ _).trans (if_neg (Nat.ne_of_lt hlt))
        | leave j =>
            refine (place?_leave _ _ _).trans (if_neg ?_)
            rintro rfl
            exact hne rfl

theorem Kept.admitted_subset (h : Kept moves a) (limit : Nat) :
    Admission.admitted limit moves a ⊆ { i | ∃ n ∈ a.place? i, n ≤ limit } := by
  rintro i ⟨hheld, hpasses⟩
  obtain ⟨n, hplace⟩ := Option.isSome_iff_exists.1 ((h.held i).2 hheld)
  rw [hplace] at hpasses
  exact ⟨n, hplace, by simpa [isOverCapacity] using hpasses⟩

theorem counted_after (moves : List Move) : Counted moves (after moves) := by
  have h := kept_after moves
  refine
    { live := h.live
      leave := ?leave
      place := ?place
      admitted := fun limit => ?admitted
      refused := fun limit => ?refused }
  case leave =>
    intro i hheld
    rw [h.live_leave, held_leave, h.live]
    exact Set.ncard_sdiff_singleton_add_one hheld (finite_held moves)
  case place =>
    rintro before later rfl hheld
    exact place?_after before later hheld
  case admitted =>
    have hfinite := (finite_held moves).subset (h.upTo_subset limit)
    exact (Set.ncard_le_ncard (h.admitted_subset limit) hfinite).trans (h.within limit)
  case refused =>
    have hsub : Admission.admitted limit moves (after moves) ⊆ Admission.held moves :=
      fun i hi => hi.1
    rw [Nat.add_comm, Set.ncard_sdiff_add_ncard_of_subset hsub (finite_held moves), h.live]

end Kept

end Admission

/-! ## The connections of a server -/

namespace Server

variable {α δ ω : Type}

/-- What is done with a server. -/
inductive Move where
  /-- A client is accepted. -/
  | connect (remote : Option String)
  /-- A connection is dropped before it runs. -/
  | drop (id : Nat)
  /-- A connection runs to its end. -/
  | run (id : Nat) (client : Client)

def move [Authenticator α] (s : Server α δ ω) : Move → Server α δ ω
  | .connect remote => (s.connect remote).2
  | .drop id => s.drop id
  | .run id client => (s.run id client).2

/-- The connections that have not ended. -/
def connected (s : Server α δ ω) : Set Nat := { id | (s.connection? id).isSome }

/-- Those of them that are not refused. -/
def served (s : Server α δ ω) : Set Nat := { id | ∃ c ∈ s.connection? id, c.isRefused = false }

/-- The connections hold the places of the admission, which went through moves. -/
structure Tracks (given : Settings) (s : Server α δ ω) : Prop where
  settings : s.settings = given
  admission : ∃ moves, s.admission = Admission.after moves
  seats : s.waiting.map (Option.map Connection.place) = s.admission.places.map (Option.map some)
  connections : ∀ c, some c ∈ s.waiting → c.session.settings = given

section Tracks

variable {given : Settings} {s : Server α δ ω}

theorem Tracks.connect (h : s.Tracks given) (remote : Option String) :
    (s.connect remote).2.Tracks given where
  settings := h.settings
  admission := by
    obtain ⟨moves, hmoves⟩ := h.admission
    exact ⟨moves ++ [.enter], by rw [Admission.after_concat, ← hmoves]; rfl⟩
  seats := by
    have hplace : s.admission.enter.2.place? s.admission.places.length
        = some (s.admission.live + 1) := (Admission.place?_enter _ _).trans (if_pos rfl)
    show List.map _ (s.waiting ++ [some _]) = List.map _ (s.admission.places ++ [some _])
    rw [List.map_append, List.map_append, h.seats]
    exact congrArg (fun place => _ ++ [some place]) hplace
  connections c hc := by
    obtain hc | hc := List.mem_append.1 hc
    · exact h.connections c hc
    · rw [Option.some.inj (List.mem_singleton.1 hc)]
      exact h.settings

theorem Tracks.drop (h : s.Tracks given) (id : Nat) : (s.drop id).Tracks given where
  settings := h.settings
  admission := by
    obtain ⟨moves, hmoves⟩ := h.admission
    exact ⟨moves ++ [.leave id], by rw [Admission.after_concat, ← hmoves]; rfl⟩
  seats := by
    show List.map _ (s.waiting.set id none) = List.map _ (s.admission.leave id).places
    rw [Admission.places_leave, List.map_set, List.map_set, h.seats]
    rfl
  connections c hc := by
    obtain hc | hc := List.mem_or_eq_of_mem_set hc
    · exact h.connections c hc
    · cases hc

theorem Tracks.moves [Authenticator α] (h : s.Tracks given) (moves : List Move) :
    (moves.foldl move s).Tracks given := by
  induction moves generalizing s with
  | nil => exact h
  | cons m moves ih =>
      cases m with
      | connect remote => exact ih (h.connect remote)
      | drop id => exact ih (h.drop id)
      | run id client => exact ih (h.drop id)

theorem Tracks.place (h : s.Tracks given) (id : Nat) :
    (s.connection? id).map Connection.place = (s.admission.place? id).map some := by
  have hseats := congrArg (fun seats => seats[id]?.join) h.seats
  simp only [List.getElem?_map] at hseats
  rw [connection?, Admission.place?]
  cases hw : s.waiting[id]? <;> cases hp : s.admission.places[id]? <;> simp_all

/-- A connection is open as long as it is held. -/
theorem Tracks.connected_eq (h : s.Tracks given) :
    ∃ moves, s.admission = Admission.after moves ∧ s.connected = Admission.held moves := by
  obtain ⟨moves, hmoves⟩ := h.admission
  refine ⟨moves, hmoves, Set.ext fun id => ?_⟩
  have hplace := congrArg Option.isSome (h.place id)
  rw [Option.isSome_map, Option.isSome_map, hmoves] at hplace
  rw [← (Admission.kept_after moves).held id, ← hplace]
  rfl

/-- A connection is served if its place is within the limit. -/
theorem Tracks.served_subset (h : s.Tracks given) {limit : Nat}
    (hlimit : given.maxConnections = some limit) :
    s.served ⊆ { id | ∃ n ∈ s.admission.place? id, n ≤ limit } := by
  rintro id ⟨c, hc, hserved⟩
  have hplace := h.place id
  rw [Option.mem_def.1 hc] at hplace
  cases hseat : s.admission.place? id with
  | none => rw [hseat] at hplace; cases hplace
  | some n =>
      rw [hseat] at hplace
      have hwaiting : some c ∈ s.waiting := List.mem_of_getElem? (Option.join_eq_some_iff.1 hc)
      have hsettings := h.connections c hwaiting
      rw [Connection.isRefused, hsettings, hlimit, Option.some.inj hplace] at hserved
      exact ⟨n, hseat, by simpa [isOverCapacity] using hserved⟩

end Tracks

/-- The server before the first client, with a limit on connections. -/
def opening (s : Server α δ ω) (limit : Nat) : Server α δ ω :=
  { s with
    settings := { s.settings with maxConnections := some limit }
    admission := {}
    waiting := [] }

theorem tracks_opening (s : Server α δ ω) (limit : Nat) :
    (s.opening limit).Tracks { s.settings with maxConnections := some limit } where
  settings := rfl
  admission := ⟨[], rfl⟩
  seats := rfl
  connections _ hc := absurd hc List.not_mem_nil

end Server

/-- The count is that of the connections held, and for every limit no more than the limit are held
that it does not refuse.  So no more than the limit are served by a server. -/
theorem admitted_within_limit {α δ ω : Type} [Authenticator α] (moves : List Admission.Move)
    (s : Server α δ ω) (limit : Nat) (clients : List Server.Move) :
    Admission.Counted moves (Admission.after moves) ∧
      let later := clients.foldl Server.move (s.opening limit)
      later.openConnections = later.connected.ncard ∧ later.served.ncard ≤ limit := by
  refine ⟨Admission.counted_after moves, ?_⟩
  have htracks := (s.tracks_opening limit).moves clients
  obtain ⟨moves, hmoves, hopen⟩ := htracks.connected_eq
  have hkept := Admission.kept_after moves
  rw [← hmoves] at hkept
  refine ⟨?_, ?_⟩
  · rw [hopen]
    exact hkept.live
  · have hfinite := (Admission.finite_held moves).subset (hkept.upTo_subset limit)
    exact (Set.ncard_le_ncard (htracks.served_subset rfl) hfinite).trans (hkept.within limit)

end SmtpReceiver
