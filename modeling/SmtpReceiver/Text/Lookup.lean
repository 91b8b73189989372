/-!
# Tables sorted by name

A `Lookup β` maps names to values.  It is a list of entries in rising order of
their names, each name once.  `insert` replaces the value of a name that is
there already, so the last insertion counts, and the order of insertion leaves
no trace.
-/

namespace SmtpReceiver.Text

/-- Entries in rising order of their names. -/
abbrev Lookup (β : Type) := List (String × β)

namespace Lookup

variable {β : Type}

/-- The table with a name bound to a value, in place of what it had. -/
def insert (k : String) (v : β) : Lookup β → Lookup β
  | [] => [(k, v)]
  | e :: es =>
    if k = e.1 then (k, v) :: es
    else if k < e.1 then (k, v) :: e :: es
    else e :: insert k v es

/-- The table without a name. -/
def erase (k : String) (t : Lookup β) : Lookup β := t.filter fun e => e.1 != k

/-- The value of a name. -/
def get? (k : String) (t : Lookup β) : Option β := List.lookup k t

/-- Whether a name has a value. -/
def contains (k : String) (t : Lookup β) : Bool := (t.get? k).isSome

/-- The names, in rising order. -/
def names (t : Lookup β) : List String := t.map Prod.fst

/-! ## What a name has afterwards -/

theorem get?_cons (k k' : String) (v : β) (t : Lookup β) :
    get? k' ((k, v) :: t) = if k' = k then some v else get? k' t := by
  by_cases h : k' = k
  · subst h
    simp [get?]
  · have hb : (k' == k) = false := beq_false_of_ne h
    simp [get?, List.lookup_cons, hb, h]

theorem get?_insert (k k' : String) (v : β) (t : Lookup β) :
    get? k' (insert k v t) = if k' = k then some v else get? k' t := by
  induction t with
  | nil => exact get?_cons k k' v []
  | cons e es ih =>
    obtain ⟨a, b⟩ := e
    by_cases hka : k = a
    · subst hka
      simp only [insert, if_true, get?_cons]
      split <;> rfl
    · by_cases hlt : k < a
      · simp only [insert, hka, hlt, if_true, if_false, get?_cons]
      · simp only [insert, hka, hlt, if_false, get?_cons, ih]
        by_cases h : k' = a
        · have hne : k' ≠ k := fun h' => hka (h'.symm.trans h)
          simp only [h, if_true]
          rw [if_neg (h ▸ hne)]
        · simp only [h, if_false]

theorem get?_erase (k k' : String) (t : Lookup β) :
    get? k' (erase k t) = if k' = k then none else get? k' t := by
  induction t with
  | nil => simp [erase, get?]
  | cons e es ih =>
    obtain ⟨a, b⟩ := e
    have ih' : get? k' (es.filter fun e => e.1 != k) = if k' = k then none else get? k' es := ih
    by_cases hak : a = k
    · subst hak
      simp only [erase, List.filter_cons, bne_self_eq_false, Bool.false_eq_true, if_false, ih',
        get?_cons]
      split <;> simp_all
    · have hb : (a != k) = true := bne_iff_ne.2 hak
      simp only [erase, List.filter_cons, hb, if_true, get?_cons, ih']
      by_cases h : k' = a
      · simp [h, hak]
      · simp [h]

/-! ## What a table holds -/

theorem mem_insert {k : String} {v : β} {t : Lookup β} {e : String × β} (h : e ∈ insert k v t) :
    e = (k, v) ∨ e ∈ t := by
  induction t with
  | nil => exact .inl (List.mem_singleton.1 h)
  | cons e' t ih =>
      rw [insert] at h
      split at h
      next => exact (List.mem_cons.1 h).imp_right (List.mem_cons_of_mem _)
      next =>
        split at h
        next => exact List.mem_cons.1 h
        next =>
          obtain rfl | h := List.mem_cons.1 h
          · exact .inr List.mem_cons_self
          · exact (ih h).imp_right (List.mem_cons_of_mem _)

theorem mem_of_get? {k : String} {v : β} {t : Lookup β} (h : get? k t = some v) : (k, v) ∈ t := by
  induction t with
  | nil => cases h
  | cons e t ih =>
      obtain ⟨k', v'⟩ := e
      rw [get?_cons] at h
      split at h
      next hk =>
        obtain rfl := Option.some.inj h
        exact hk ▸ List.mem_cons_self
      next => exact List.mem_cons_of_mem _ (ih h)

/-! ## Values added one after the other -/

section Fold

variable {name : β → String} {vs : List β} {v : β}

/-- Entries that are added one after the other have the name that each of them goes by. -/
theorem mem_foldl_insert {t : Lookup β} {e : String × β}
    (h : e ∈ vs.foldl (fun t v => insert (name v) v t) t) :
    (e.1 = name e.2 ∧ e.2 ∈ vs) ∨ e ∈ t := by
  induction vs generalizing t with
  | nil => exact .inr h
  | cons v vs ih =>
      obtain ⟨hname, hmem⟩ | h := ih h
      · exact .inl ⟨hname, List.mem_cons_of_mem _ hmem⟩
      · obtain rfl | h := mem_insert h
        · exact .inl ⟨rfl, List.mem_cons_self⟩
        · exact .inr h

theorem get?_foldl_insert_of_notMem {k : String} (h : k ∉ vs.map name) (t : Lookup β) :
    get? k (vs.foldl (fun t v => insert (name v) v t) t) = get? k t := by
  induction vs generalizing t with
  | nil => rfl
  | cons v vs ih =>
      rw [List.map_cons, List.mem_cons, not_or] at h
      rw [List.foldl_cons, ih h.2, get?_insert, if_neg h.1]

/-- Each value is found, if no two go by one name. -/
theorem get?_foldl_insert (hnames : (vs.map name).Nodup) (hv : v ∈ vs) (t : Lookup β) :
    get? (name v) (vs.foldl (fun t v => insert (name v) v t) t) = some v := by
  induction vs generalizing t with
  | nil => cases hv
  | cons w vs ih =>
      rw [List.map_cons, List.nodup_cons] at hnames
      rw [List.foldl_cons]
      obtain rfl | hv := List.mem_cons.1 hv
      · rw [get?_foldl_insert_of_notMem hnames.1, get?_insert, if_pos rfl]
      · exact ih hnames.2 hv _

end Fold

end Lookup

end SmtpReceiver.Text
