import Mathlib.Data.List.Nodup
import StreamStore.Table

/-!
# Rows of tables

A table is proper when no key has two rows.  Every table that is made by writing
and erasing keys is; then a key's row stands at one place in the list of rows, and
erasing the key takes that place out.
-/

namespace StreamStore.Table

variable {κ ν : Type} {t : Table κ ν} {k : κ} {v : ν} {xs ys : List (κ × ν)}

/-- No key has two rows. -/
def Proper (t : Table κ ν) : Prop := t.keys.Nodup

theorem proper_empty : ({} : Table κ ν).Proper :=
  List.nodup_nil

/-- Where a key's row stands among the others. -/
theorem Proper.notMem_of_rows_eq (h : t.Proper) (hrows : t.rows = xs ++ (k, v) :: ys) :
    (∀ row ∈ xs, row.1 ≠ k) ∧ ∀ row ∈ ys, row.1 ≠ k := by
  rw [Proper, keys, hrows, List.map_append, List.map_cons] at h
  have hk := (List.nodup_cons.mp (List.nodup_middle.mp h)).1
  rw [List.mem_append, not_or] at hk
  constructor
  · intro row hrow heq
    exact hk.1 (List.mem_map.mpr ⟨row, hrow, heq⟩)
  · intro row hrow heq
    exact hk.2 (List.mem_map.mpr ⟨row, hrow, heq⟩)

variable [DecidableEq κ]

theorem find?_eq_none_iff : t.find? k = none ↔ k ∉ t.keys := by
  rw [find?, Option.map_eq_none_iff, List.find?_eq_none, keys, List.mem_map]
  constructor
  · rintro h ⟨row, hrow, rfl⟩
    exact h row hrow (by simp)
  · rintro h row hrow heq
    exact h ⟨row, hrow, by simpa using heq⟩

theorem exists_rows_eq (h : t.find? k = some v) :
    ∃ xs ys, t.rows = xs ++ (k, v) :: ys := by
  obtain ⟨row, hrow, rfl⟩ := Option.map_eq_some_iff.mp h
  obtain ⟨hkey, xs, ys, hrows, -⟩ := List.find?_eq_some_iff_append.mp hrow
  refine ⟨xs, ys, ?_⟩
  rw [hrows, ← of_decide_eq_true hkey]

theorem Proper.find?_of_rows_eq (h : t.Proper) (hrows : t.rows = xs ++ (k, v) :: ys) :
    t.find? k = some v := by
  obtain ⟨hxs, -⟩ := h.notMem_of_rows_eq hrows
  have hnone : xs.find? (fun row => row.1 = k) = none :=
    List.find?_eq_none.mpr fun row hrow => by simpa using hxs row hrow
  rw [find?, hrows, List.find?_append, hnone, List.find?_cons_of_pos (by simp)]
  rfl

theorem Proper.rows_erase_of_rows_eq (h : t.Proper)
    (hrows : t.rows = xs ++ (k, v) :: ys) : (t.erase k).rows = xs ++ ys := by
  obtain ⟨hxs, hys⟩ := h.notMem_of_rows_eq hrows
  rw [erase, hrows, List.filter_append, List.filter_cons_of_neg (by simp),
    List.filter_eq_self.mpr fun row hrow => by simpa using hxs row hrow,
    List.filter_eq_self.mpr fun row hrow => by simpa using hys row hrow]

theorem erase_of_find?_eq_none (h : t.find? k = none) : t.erase k = t := by
  rw [find?_eq_none_iff, keys, List.mem_map] at h
  have hrows : t.rows.filter (fun row => row.1 ≠ k) = t.rows :=
    List.filter_eq_self.mpr fun row hrow => by
      simpa using fun heq => h ⟨row, hrow, heq⟩
  rw [erase, hrows]

theorem Proper.erase (h : t.Proper) (k : κ) : (t.erase k).Proper :=
  h.sublist ((List.filter_sublist).map _)

theorem Proper.insert (h : t.Proper) (k : κ) (v : ν) : (t.insert k v).Proper := by
  refine List.nodup_cons.mpr ⟨?_, h.erase k⟩
  rw [← keys, ← find?_eq_none_iff]
  exact find?_erase_self t k

theorem Proper.modify (h : t.Proper) (k : κ) (f : ν → ν) : (t.modify k f).Proper := by
  rw [Table.modify]
  split
  · exact h.insert k _
  · exact h

theorem Proper.size_erase (h : t.Proper) (hk : t.find? k = some v) :
    (t.erase k).size + 1 = t.size := by
  obtain ⟨xs, ys, hrows⟩ := exists_rows_eq hk
  rw [size, size, h.rows_erase_of_rows_eq hrows, hrows, List.length_append,
    List.length_append, List.length_cons, Nat.add_assoc]

theorem size_insert (t : Table κ ν) (k : κ) (v : ν) :
    (t.insert k v).size = (t.erase k).size + 1 :=
  rfl

theorem Proper.size_modify (h : t.Proper) (k : κ) (f : ν → ν) :
    (t.modify k f).size = t.size := by
  rw [Table.modify]
  split
  next v hk => rw [size_insert, h.size_erase hk]
  · rfl

end StreamStore.Table
