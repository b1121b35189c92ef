import StreamStore.Proofs.Cache.Recency

/-!
# What a cache holds

A cache holds a table whose rows are its entries in the order of use.  Looking at
a key changes at most that order; writing a key may push one row out; nothing else
than removing and dropping takes rows away.
-/

namespace StreamStore

namespace Table

variable {κ ν : Type} [DecidableEq κ]

/-- All rows of one table are rows of another. -/
def Within (t t' : Table κ ν) : Prop := ∀ k v, t.find? k = some v → t'.find? k = some v

theorem find?_promote (t : Table κ ν) (k k' : κ) :
    (t.promote k).find? k' = t.find? k' := by
  rw [promote]
  cases hk : t.find? k with
  | none => rfl
  | some v =>
      simp only
      rw [find?_insert]
      by_cases h : k' = k
      · rw [if_pos h, h, hk]
      · rw [if_neg h]

theorem find?_of_mem_rows {t : Table κ ν} (h : t.Proper) {k : κ} {v : ν}
    (hmem : (k, v) ∈ t.rows) : t.find? k = some v := by
  obtain ⟨xs, ys, hrows⟩ := List.append_of_mem hmem
  exact h.find?_of_rows_eq hrows

theorem mem_rows_of_find? {t : Table κ ν} {k : κ} {v : ν} (h : t.find? k = some v) :
    (k, v) ∈ t.rows := by
  obtain ⟨xs, ys, hrows⟩ := exists_rows_eq h
  rw [hrows]
  exact List.mem_append_right xs List.mem_cons_self

theorem within_of_subset {t t' : Table κ ν} (h : t'.Proper) (hsub : t.rows ⊆ t'.rows) :
    t.Within t' :=
  fun _ _ hfind => find?_of_mem_rows h (hsub (mem_rows_of_find? hfind))

theorem find?_upsert_self (t : Table κ ν) (capacity : Nat) (k : κ) (v : ν) :
    (t.upsert capacity k v).find? k = some v := by
  rw [upsert]
  split
  · exact find?_insert_self ..
  · exact find?_insert_self ..

/-- Writing a key brings no other row in. -/
theorem find?_upsert_of_ne {t : Table κ ν} (h : t.Proper) {capacity : Nat} {k k' : κ}
    {v v' : ν} (hne : k' ≠ k) (hfind : (t.upsert capacity k v).find? k' = some v') :
    t.find? k' = some v' := by
  rw [upsert] at hfind
  split at hfind
  · rw [find?_insert_of_ne _ _ hne] at hfind
    exact within_of_subset h (List.dropLast_subset _) k' v' hfind
  · rw [find?_insert_of_ne _ _ hne] at hfind
    exact hfind

end Table

namespace Cache

variable {κ ν : Type} [DecidableEq κ]

/-- A cache holds a table: its slab does, and there is no more than it has room
for. -/
structure Holds (c : Cache κ ν) (t : Table κ ν) : Prop where
  slab : ∃ places, c.slab.Holds places t
  size_le : t.size ≤ c.capacity
  capacity_pos : 0 < c.capacity

theorem holds_ofCapacity (capacity : Nat) : (ofCapacity capacity : Cache κ ν).Holds {} where
  slab := ⟨[], Slab.holds_empty⟩
  size_le := Nat.zero_le _
  capacity_pos := Nat.lt_of_lt_of_le Nat.one_pos (Nat.le_max_right capacity 1)

namespace Holds

variable {c : Cache κ ν} {t : Table κ ν}

theorem table_proper (h : c.Holds t) : t.Proper := by
  obtain ⟨places, hslab⟩ := h.slab
  exact hslab.table_proper

theorem peek_eq (h : c.Holds t) (k : κ) : c.peek k = t.find? k := by
  obtain ⟨places, hslab⟩ := h.slab
  rw [peek, hslab.find?_eq, Option.getD_some]

theorem size_promote (h : c.Holds t) (k : κ) : (t.promote k).size = t.size := by
  rw [Table.promote]
  cases hk : t.find? k with
  | none => rfl
  | some v =>
      simp only
      rw [Table.size_insert, h.table_proper.size_erase hk]

theorem touch (h : c.Holds t) (k : κ) : (c.touch k).Holds (t.promote k) := by
  obtain ⟨places, hslab⟩ := h.slab
  obtain ⟨s', places', htouch, hslab'⟩ := hslab.touch? k
  refine ⟨⟨places', ?_⟩, ?_, h.capacity_pos⟩
  · rw [Cache.touch, htouch, Option.getD_some]
    exact hslab'
  · rw [h.size_promote]
    exact h.size_le

theorem lookup (h : c.Holds t) (k : κ) :
    (c.lookup k).1 = t.find? k ∧ (c.lookup k).2.Holds (t.promote k) := by
  have htouch := h.touch k
  rw [Cache.lookup, h.peek_eq]
  cases hk : t.find? k with
  | some v => exact ⟨rfl, htouch.slab, htouch.size_le, htouch.capacity_pos⟩
  | none =>
      have hsame : t.promote k = t := by rw [Table.promote, hk]
      rw [hsame]
      exact ⟨rfl, h.slab, h.size_le, h.capacity_pos⟩

theorem recheck (h : c.Holds t) (k : κ) :
    (c.recheck k).1 = t.find? k ∧ (c.recheck k).2.Holds (t.promote k) :=
  ⟨h.peek_eq k, h.touch k⟩

theorem touchIf (h : c.Holds t) (k : κ) (test : ν → Bool) :
    ∃ t', (c.touchIf k test).2.Holds t' ∧ ∀ k', t'.find? k' = t.find? k' := by
  rw [Cache.touchIf]
  split
  · exact ⟨t.promote k, h.touch k, t.find?_promote k⟩
  · exact ⟨t, h, fun _ => rfl⟩

theorem size_upsert_le (h : c.Holds t) (k : κ) (v : ν) :
    (t.upsert c.capacity k v).size ≤ c.capacity := by
  have hsize := h.size_le
  have hpos := h.capacity_pos
  rw [Table.upsert]
  by_cases hfull : (t.find? k).isNone = true ∧ c.capacity ≤ t.size
  · have hle : (t.dropLast.erase k).size ≤ t.dropLast.size := List.length_filter_le _ _
    have hdrop : t.dropLast.size = t.size - 1 := List.length_dropLast
    rw [if_pos hfull, Table.size_insert]
    omega
  · rw [if_neg hfull, Table.size_insert]
    cases hk : t.find? k with
    | none =>
        rw [hk] at hfull
        have hroom : t.size < c.capacity := by
          by_contra hge
          exact hfull ⟨rfl, by omega⟩
        rw [Table.erase_of_find?_eq_none hk]
        omega
    | some v₀ =>
        rw [h.table_proper.size_erase hk]
        exact hsize

theorem put (h : c.Holds t) (k : κ) (v : ν) :
    (c.put k v).2.2.Holds (t.upsert c.capacity k v) := by
  obtain ⟨places, hslab⟩ := h.slab
  obtain ⟨s', places', hupsert, hslab'⟩ := hslab.upsert? c.capacity k v
  have hsize := h.size_upsert_le k v
  rw [Cache.put, hupsert]
  cases t.find? k with
  | none => exact ⟨⟨places', hslab'⟩, hsize, h.capacity_pos⟩
  | some v₀ => exact ⟨⟨places', hslab'⟩, hsize, h.capacity_pos⟩

theorem remove (h : c.Holds t) (k : κ) :
    (c.remove k).1 = t.find? k ∧ (c.remove k).2.Holds (t.erase k) := by
  obtain ⟨places, hslab⟩ := h.slab
  obtain ⟨s', places', hremove, hslab'⟩ := hslab.remove? k
  have hsize : (t.erase k).size ≤ t.size := List.length_filter_le _ _
  rw [Cache.remove, hremove]
  exact ⟨rfl, ⟨places', hslab'⟩, Nat.le_trans hsize h.size_le, h.capacity_pos⟩

theorem dropOldest (h : c.Holds t) (n : Nat) :
    (c.dropOldest n).2.Holds (t.dropOldest (min n t.size)) := by
  obtain ⟨places, hslab⟩ := h.slab
  obtain ⟨s', places', hremove, hslab'⟩ := hslab.removeOldestN? (min n t.size)
  have hsize : (t.dropOldest (min n t.size)).size ≤ t.size := List.length_take_le' _ _
  rw [Cache.dropOldest, Cache.size, hslab.size_eq, hremove]
  exact ⟨⟨places', hslab'⟩, Nat.le_trans hsize h.size_le, h.capacity_pos⟩

end Holds

end Cache

end StreamStore
