import SmtpReceiver.Message
import Mathlib.Data.List.Infix

/-!
# Readers of one message

All readers of a message read from one storage, and a spill file has one cursor for them all.
But what a reading gives depends on the place of the reader and on the content only, and the
content stays (`Reader.Gives`).  So a reader has returned the content up to its place, whatever
else was read in between (`Readers.Sees`).

That holds for files with any cursor, and with bytes behind those that belong to the message.
So the readers of a spilled message return what the readers of the same message in memory do.
A listener that is given a message after others gets all of it.
-/

namespace SmtpReceiver

open Text (Bytes)

theorem Storage.length_content_le (s : Storage) : s.content.length ≤ s.length := by
  cases s with
  | memory content => exact Nat.le_refl _
  | file f length => exact List.length_take_le length f.content

/-! ## One reading -/

namespace Reader

variable {r r' : Reader} {n : Nat} {bytes : Bytes} {t t' : Bytes × Reader}

/-- What is still to be read. -/
def remaining (r : Reader) : Bytes := r.storage.content.drop r.position

/-- A reading gives these bytes and moves the reader behind them.  The content stays. -/
structure Gives (r : Reader) (bytes : Bytes) (t : Bytes × Reader) : Prop where
  given : t.1 = bytes
  position : t.2.position = r.position + bytes.length
  content : t.2.storage.content = r.storage.content

/-- The cursor that the file had does not matter, and neither does what it has behind the content. -/
theorem read_gives (r : Reader) (n : Nat) : r.Gives (r.remaining.take n) (r.read n) := by
  obtain ⟨storage, position⟩ := r
  cases storage with
  | memory content => exact ⟨rfl, rfl, rfl⟩
  | file f length =>
      have hremaining : (remaining ⟨.file f length, position⟩).take n
          = (f.content.drop position).take (min n (length - position)) := by
        rw [remaining, Storage.content, List.drop_take, List.take_take]
      rw [hremaining, read]
      dsimp only
      split
      next h =>
        have hnone : min n (length - position) = 0 := by
          obtain hend | rfl := h
          · rw [Nat.sub_eq_zero_of_le hend, Nat.min_zero]
          · exact Nat.zero_min _
        rw [hnone]
        exact ⟨rfl, rfl, rfl⟩
      next => exact ⟨rfl, rfl, rfl⟩

theorem Gives.remaining (h : r.Gives bytes t) :
    t.2.remaining = r.remaining.drop bytes.length := by
  rw [Reader.remaining, h.content, h.position, Reader.remaining, List.drop_drop]

/-- One reading after the other. -/
theorem Gives.trans {more : Bytes} {u : Bytes × Reader} (h : r.Gives bytes t)
    (hmore : t.2.Gives more u) : r.Gives (bytes ++ more) (t.1 ++ u.1, u.2) where
  given := by rw [h.given, hmore.given]
  position := by rw [hmore.position, h.position, List.length_append, Nat.add_assoc]
  content := hmore.content.trans h.content

/-- A batch for each byte is enough, and one more to find the end. -/
theorem readBatches_gives {k : Nat} :
    ∀ {r : Reader}, r.remaining.length < k → r.Gives r.remaining (r.readBatches k) := by
  induction k with
  | zero => exact fun hlt => absurd hlt (Nat.not_lt_zero _)
  | succ k ih =>
      intro r hlt
      have hread := r.read_gives readBatch
      rw [readBatches]
      split
      next hempty =>
        -- No byte in a batch means that there is none any more.
        have htake : r.remaining.take readBatch = [] :=
          hread.given.symm.trans (List.isEmpty_iff.1 hempty)
        have hend : r.remaining = [] :=
          (List.take_eq_nil_iff.1 htake).resolve_left (by decide)
        rwa [htake, ← hend] at hread
      next hsome =>
        have hne : r.remaining.take readBatch ≠ [] := by
          rw [← hread.given]
          exact fun hnil => hsome (List.isEmpty_iff.2 hnil)
        have hpos := List.length_pos_iff.2 hne
        have hrest : (r.read readBatch).2.remaining
            = r.remaining.drop (r.remaining.take readBatch).length := hread.remaining
        have hsplit : r.remaining.take readBatch ++ (r.read readBatch).2.remaining
            = r.remaining := by
          rw [hrest, List.prefix_iff_eq_append.1 (List.take_prefix _ _)]
        have hshorter : (r.read readBatch).2.remaining.length < k := by
          rw [hrest, List.length_drop]
          have hle := (List.take_prefix readBatch r.remaining).length_le
          omega
        exact hsplit ▸ hread.trans (ih hshorter)

theorem readAll_gives (r : Reader) : r.Gives r.remaining r.readAll := by
  refine readBatches_gives ?_
  have hle := r.storage.length_content_le
  rw [remaining, List.length_drop]
  omega

/-! ## Readers at the same place -/

/-- Two readers are at the same place of the same content. -/
structure Alike (r r' : Reader) : Prop where
  content : r.storage.content = r'.storage.content
  position : r.position = r'.position

theorem Alike.remaining (h : r.Alike r') : r.remaining = r'.remaining := by
  rw [Reader.remaining, Reader.remaining, h.content, h.position]

/-- Both give the same bytes and are at the same place again. -/
theorem Gives.alike (halike : r.Alike r') (h : r.Gives bytes t) (h' : r'.Gives bytes t') :
    t.1 = t'.1 ∧ t.2.Alike t'.2 where
  left := h.given.trans h'.given.symm
  right :=
    ⟨by rw [h.content, h'.content, halike.content],
      by rw [h.position, h'.position, halike.position]⟩

theorem Alike.read (h : r.Alike r') (n : Nat) :
    (r.read n).1 = (r'.read n).1 ∧ (r.read n).2.Alike (r'.read n).2 :=
  (h.remaining ▸ r.read_gives n).alike h (r'.read_gives n)

theorem Alike.readAll (h : r.Alike r') : r.readAll.1 = r'.readAll.1 ∧ r.readAll.2.Alike r'.readAll.2 :=
  (h.remaining ▸ r.readAll_gives).alike h r'.readAll_gives

end Reader

theorem Storage.remaining_open (s : Storage) : s.open.remaining = s.content := rfl

theorem Message.readAll_open (m : Message) : m.open.readAll.1 = m.content :=
  m.open.readAll_gives.given

/-! ## Several readers -/

namespace Readers

/-- What can be done with the readers of a message. -/
inductive Use where
  /-- One more reader is opened. -/
  | add
  /-- A reader is asked for so many bytes. -/
  | read (i n : Nat)
  /-- A reader reads to the end. -/
  | rest (i : Nat)
deriving DecidableEq, Repr

/-- The reader that reads. -/
def Use.reader? : Use → Option Nat
  | add => none
  | read i _ => some i
  | rest i => some i

/-- Does it, and gives the bytes if a reader reads. -/
def use (rs : Readers) : Use → Bytes × Readers
  | .add => ([], rs.add.2)
  | .read i n => rs.run i fun r => r.read n
  | .rest i => rs.run i Reader.readAll

/-- The readers after uses. -/
def after (rs : Readers) (uses : List Use) : Readers := uses.foldl (fun rs u => (rs.use u).2) rs

/-- What each use gives. -/
def answers : Readers → List Use → List (Use × Bytes)
  | _, [] => []
  | rs, u :: us => (u, (rs.use u).1) :: (rs.use u).2.answers us

/-- The bytes among answers that a reader has returned. -/
def returned (answers : List (Use × Bytes)) (i : Nat) : Bytes :=
  answers.flatMap fun a => if a.1.reader? = some i then a.2 else []

variable {rs rs' : Readers} {content : Bytes} {before : Nat → Bytes} {i p : Nat}

/-- What each reader has returned is the content up to its place. -/
structure Sees (content : Bytes) (rs : Readers) (returned : Nat → Bytes) : Prop where
  stored : rs.storage.content = content
  opened : ∀ i p, rs.opened[i]? = some p → returned i = content.take p ∧ (returned i).length = p
  unopened : ∀ i, rs.opened.length ≤ i → returned i = []

theorem run_of_opened (h : rs.opened[i]? = some p) (reading : Reader → Bytes × Reader) :
    rs.run i reading =
      let t := reading ⟨rs.storage, p⟩
      (t.1, { rs with storage := t.2.storage, opened := rs.opened.set i t.2.position }) := by
  rw [run, h]

theorem run_of_unopened (h : rs.opened[i]? = none) (reading : Reader → Bytes × Reader) :
    rs.run i reading = ([], rs) := by
  rw [run, h]

/-- A reading moves one reader only. -/
theorem Sees.run {reading : Reader → Bytes × Reader} {given : Bytes}
    (h : rs.Sees content before) (hopened : rs.opened[i]? = some p)
    (hgives : (Reader.mk rs.storage p).Gives given (reading ⟨rs.storage, p⟩))
    (hgiven : given <+: (Reader.mk rs.storage p).remaining) :
    (rs.run i reading).2.Sees content
      fun j => before j ++ if some i = some j then (rs.run i reading).1 else [] := by
  obtain ⟨hin, heq⟩ := List.getElem?_eq_some_iff.1 hopened
  obtain ⟨hbefore, hlength⟩ := h.opened i p hopened
  rw [run_of_opened hopened]
  refine ⟨hgives.content.trans h.stored, fun j q hj => ?_, fun j hj => ?_⟩
  · by_cases hij : i = j
    · subst hij
      rw [List.getElem?_set_self hin] at hj
      obtain rfl := Option.some.inj hj
      have hmore : given = (content.drop p).take given.length := by
        rw [Reader.remaining, h.stored] at hgiven
        exact List.prefix_iff_eq_take.1 hgiven
      rw [if_pos rfl, hgives.given, hgives.position]
      refine ⟨?_, by rw [List.length_append, hlength]⟩
      rw [hbefore, List.take_add, ← hmore]
    · rw [List.getElem?_set_ne hij] at hj
      rw [if_neg fun hsome => hij (Option.some.inj hsome), List.append_nil]
      exact h.opened j q hj
  · rw [List.length_set] at hj
    rw [if_neg fun hsome => absurd (Option.some.inj hsome) (by omega), List.append_nil]
    exact h.unopened j hj

theorem Sees.use (h : rs.Sees content before) (u : Use) :
    (rs.use u).2.Sees content
      fun i => before i ++ if u.reader? = some i then (rs.use u).1 else [] := by
  have hnobody {i : Nat} {reading : Reader → Bytes × Reader} (hnone : rs.opened[i]? = none) :
      (rs.run i reading).2.Sees content
        fun j => before j ++ if some i = some j then (rs.run i reading).1 else [] := by
    rw [run_of_unopened hnone]
    simpa only [ite_self, List.append_nil] using h
  cases u with
  | add =>
      have hnothing (i : Nat) :
          (before i ++ if Use.add.reader? = some i then (rs.use .add).1 else []) = before i :=
        List.append_nil _
      simp only [hnothing]
      refine ⟨h.stored, fun i p hp => ?_, fun i hi => ?_⟩
      · obtain hi | hi := Nat.lt_or_ge i rs.opened.length
        · exact h.opened i p ((List.getElem?_append_left hi).symm.trans hp)
        · have hp : [0][i - rs.opened.length]? = some p :=
            (List.getElem?_append_right hi).symm.trans hp
          obtain rfl := List.mem_singleton.1 (List.mem_of_getElem? hp)
          rw [h.unopened i hi]
          exact ⟨rfl, rfl⟩
      · have hle : (rs.opened ++ [0]).length ≤ i := hi
        rw [List.length_append] at hle
        exact h.unopened i (Nat.le_of_add_right_le hle)
  | read i n =>
      cases hopened : rs.opened[i]? with
      | none => exact hnobody hopened
      | some p => exact h.run hopened (Reader.read_gives _ n) (List.take_prefix _ _)
  | rest i =>
      cases hopened : rs.opened[i]? with
      | none => exact hnobody hopened
      | some p => exact h.run hopened (Reader.readAll_gives _) (List.prefix_refl _)

/-- What each reader has returned is the content up to its place, after any uses. -/
theorem Sees.after (h : rs.Sees content before) (uses : List Use) :
    (rs.after uses).Sees content fun i => before i ++ returned (rs.answers uses) i := by
  induction uses generalizing rs before with
  | nil =>
      simpa only [Readers.after, answers, returned, List.foldl_nil, List.flatMap_nil,
        List.append_nil] using h
  | cons u us ih =>
      have hrest := ih (h.use u)
      simp only [List.append_assoc] at hrest
      simpa only [Readers.after, answers, returned, List.foldl_cons, List.flatMap_cons] using hrest

theorem sees_new (m : Message) (s : Storage) :
    Sees s.content { message := m, storage := s } fun _ => [] where
  stored := rfl
  opened _ _ h := by cases h
  unopened _ _ := rfl

section Next

variable {seen : Nat → Bytes}

theorem Sees.reader (h : rs.Sees content seen) (hi : i < rs.opened.length) :
    ∃ p, rs.opened[i]? = some p ∧ (seen i).length = p ∧ seen i = content.take p ∧
      (Reader.mk rs.storage p).remaining = content.drop p := by
  have hopened := List.getElem?_eq_getElem hi
  obtain ⟨htake, hlength⟩ := h.opened i _ hopened
  exact ⟨_, hopened, hlength, htake, by rw [Reader.remaining, h.stored]⟩

theorem Sees.returned_eq (h : rs.Sees content seen) (hi : i < rs.opened.length) :
    seen i = content.take (seen i).length := by
  obtain ⟨p, -, rfl, htake, -⟩ := h.reader hi
  exact htake

/-- What a reader gives next are the bytes behind those that it has returned. -/
theorem Sees.read (h : rs.Sees content seen) (hi : i < rs.opened.length) (n : Nat) :
    (rs.run i fun r => r.read n).1 = (content.drop (seen i).length).take n := by
  obtain ⟨p, hopened, rfl, -, hremaining⟩ := h.reader hi
  rw [run_of_opened hopened, ← hremaining]
  exact (Reader.read_gives _ n).given

/-- A reader that is asked for bytes gives none only at the end. -/
theorem Sees.read_eq_nil (h : rs.Sees content seen) (hi : i < rs.opened.length) (n : Nat) :
    (rs.run i fun r => r.read n).1 = [] ↔ n = 0 ∨ seen i = content := by
  have hend : content.length ≤ (seen i).length ↔ seen i = content := by
    constructor
    · intro hle
      rw [h.returned_eq hi, List.take_of_length_le hle]
    · intro heq
      rw [heq]
  rw [h.read hi, List.take_eq_nil_iff, List.drop_eq_nil_iff, hend]

theorem Sees.readAll (h : rs.Sees content seen) (hi : i < rs.opened.length) :
    (rs.run i Reader.readAll).1 = content.drop (seen i).length := by
  obtain ⟨p, hopened, rfl, -, hremaining⟩ := h.reader hi
  rw [run_of_opened hopened, ← hremaining]
  exact (Reader.readAll_gives _).given

end Next

/-! ## Two storages with the same content -/

/-- The readers are at the same places of the same content. -/
structure Alike (rs rs' : Readers) : Prop where
  content : rs.storage.content = rs'.storage.content
  opened : rs.opened = rs'.opened

theorem Alike.run (h : rs.Alike rs') (i : Nat) {reading : Reader → Bytes × Reader}
    (hreading : ∀ {r r' : Reader}, r.Alike r' →
      (reading r).1 = (reading r').1 ∧ (reading r).2.Alike (reading r').2) :
    (rs.run i reading).1 = (rs'.run i reading).1 ∧
      (rs.run i reading).2.Alike (rs'.run i reading).2 := by
  cases hopened : rs.opened[i]? with
  | none =>
      rw [run_of_unopened hopened, run_of_unopened (h.opened ▸ hopened)]
      exact ⟨rfl, h⟩
  | some p =>
      rw [run_of_opened hopened, run_of_opened (h.opened ▸ hopened)]
      have hreaders : (Reader.mk rs.storage p).Alike ⟨rs'.storage, p⟩ := ⟨h.content, rfl⟩
      obtain ⟨hgiven, halike⟩ := hreading hreaders
      exact ⟨hgiven, halike.content,
        congrArg₂ (fun opened q => opened.set i q) h.opened halike.position⟩

theorem Alike.use (h : rs.Alike rs') (u : Use) :
    (rs.use u).1 = (rs'.use u).1 ∧ (rs.use u).2.Alike (rs'.use u).2 := by
  cases u with
  | add => exact ⟨rfl, h.content, congrArg (· ++ [0]) h.opened⟩
  | read i n => exact h.run i fun halike => halike.read n
  | rest i => exact h.run i Reader.Alike.readAll

theorem Alike.answers (h : rs.Alike rs') (uses : List Use) :
    rs.answers uses = rs'.answers uses := by
  induction uses generalizing rs rs' with
  | nil => rfl
  | cons u us ih =>
      obtain ⟨hgiven, hnext⟩ := h.use u
      rw [Readers.answers, Readers.answers, hgiven, ih hnext]

end Readers

end SmtpReceiver
