import Mathlib.Data.List.Perm.Basic
import SmtpReceiver.Text.Lookup

/-!
# Tables in the order of their names

Adding and removing keep the names of a table in rising order (`Sorted`).  Each name
stands in such a table once, with the value that is found under it.

So a table is known by what is found in it.  Two sorted tables in which every name has
the same value are the same (`Sorted.eq_of_get?`), and nothing shows in what order their
entries were added.
-/

namespace SmtpReceiver.Text.Lookup

variable {β : Type}

/-- The names rise. -/
def Sorted (t : Lookup β) : Prop := t.Pairwise fun e e' => e.1 < e'.1

theorem sorted_nil : Sorted ([] : Lookup β) := .nil

theorem Sorted.insert {t : Lookup β} (h : t.Sorted) (k : String) (v : β) :
    (insert k v t).Sorted := by
  induction t with
  | nil => exact List.pairwise_singleton _ _
  | cons e t ih =>
      obtain ⟨hfirst, hrest⟩ := List.pairwise_cons.1 h
      rw [Lookup.insert]
      split
      next heq => exact List.pairwise_cons.2 ⟨fun e' he' => heq ▸ hfirst e' he', hrest⟩
      next hne =>
        split
        next hlt =>
          refine List.pairwise_cons.2 ⟨fun e' he' => ?_, h⟩
          obtain rfl | he' := List.mem_cons.1 he'
          · exact hlt
          · exact String.lt_trans hlt (hfirst e' he')
        next hnot =>
          refine List.pairwise_cons.2 ⟨fun e' he' => ?_, ih hrest⟩
          obtain rfl | he' := mem_insert he'
          · exact Std.lt_of_le_of_ne (String.not_lt.1 hnot) (Ne.symm hne)
          · exact hfirst e' he'

theorem Sorted.erase {t : Lookup β} (h : t.Sorted) (k : String) : (erase k t).Sorted :=
  List.Pairwise.filter _ h

/-- The names rise, so each of them stands in the table once. -/
theorem Sorted.names {t : Lookup β} (h : t.Sorted) : t.names.Pairwise (· < ·) :=
  List.pairwise_map.2 h

theorem Sorted.nodup {t : Lookup β} (h : t.Sorted) : t.Nodup := by
  refine List.Pairwise.imp (fun {e e'} hlt heq => ?_) h
  exact String.lt_irrefl e.1 (heq ▸ hlt)

/-! ## What is found -/

theorem Sorted.get?_of_mem {k : String} {v : β} {t : Lookup β} (h : t.Sorted) (hmem : (k, v) ∈ t) :
    get? k t = some v := by
  induction t with
  | nil => cases hmem
  | cons e t ih =>
      obtain ⟨hfirst, hrest⟩ := List.pairwise_cons.1 h
      obtain ⟨k', v'⟩ := e
      rw [get?_cons]
      cases hmem with
      | head => exact if_pos rfl
      | tail _ hmem =>
          have hlt : k' < k := hfirst (k, v) hmem
          have hne : k ≠ k' := fun heq => String.lt_irrefl k (heq ▸ hlt)
          rw [if_neg hne, ih hrest hmem]

theorem Sorted.mem_iff {k : String} {v : β} {t : Lookup β} (h : t.Sorted) :
    (k, v) ∈ t ↔ get? k t = some v :=
  ⟨h.get?_of_mem, mem_of_get?⟩

/-- A table is known by what is found in it. -/
theorem Sorted.eq_of_get? {t t' : Lookup β} (h : t.Sorted) (h' : t'.Sorted)
    (hget : ∀ k, get? k t = get? k t') : t = t' := by
  have hperm : t.Perm t' := by
    refine (List.perm_ext_iff_of_nodup h.nodup h'.nodup).2 fun e => ?_
    rw [h.mem_iff (k := e.1) (v := e.2), h'.mem_iff (k := e.1) (v := e.2), hget]
  refine hperm.eq_of_pairwise (fun e e' _ _ hlt hgt => ?_) h h'
  exact absurd hgt (String.lt_asymm hlt)

/-- The names of a table are those under which something is found. -/
theorem mem_names {k : String} {t : Lookup β} : k ∈ t.names ↔ ∃ v, get? k t = some v := by
  induction t with
  | nil => exact ⟨nofun, nofun⟩
  | cons e t ih =>
      obtain ⟨k', v⟩ := e
      rw [names, List.map_cons, List.mem_cons, get?_cons]
      by_cases heq : k = k'
      · exact iff_of_true (.inl heq) ⟨v, if_pos heq⟩
      · rw [if_neg heq, or_iff_right heq]
        exact ih

/-! ## Values added one after the other -/

theorem Sorted.foldl_insert (name : β → String) (vs : List β) : ∀ {t : Lookup β}, t.Sorted →
    (vs.foldl (fun t v => Lookup.insert (name v) v t) t).Sorted := by
  induction vs with
  | nil => exact id
  | cons v vs ih => exact fun h => ih (h.insert (name v) v)

end SmtpReceiver.Text.Lookup
