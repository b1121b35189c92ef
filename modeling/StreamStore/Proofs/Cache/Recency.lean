import StreamStore.Cache.Basic
import StreamStore.Proofs.Cache.Thread
import StreamStore.Proofs.Table

/-!
# Slabs as lists in the order of use

A slab holds a table whose rows are its entries, most recently used first: the
thread goes through all places of the array, and the index finds each key at its
own place.  No operation on such a slab looks outside its array, and each one does
what its plain counterpart does to the table: a touched or written row goes to the
front, and the last row is the one that has to go.
-/

namespace StreamStore

namespace Table

variable {κ ν : Type}

/-- A table without its last row. -/
def dropLast (t : Table κ ν) : Table κ ν := ⟨t.rows.dropLast⟩

/-- A table without its last rows, up to a number of them. -/
def dropOldest (t : Table κ ν) (n : Nat) : Table κ ν := ⟨t.rows.take (t.rows.length - n)⟩

/-- A key's row put first, if it has one. -/
def promote [DecidableEq κ] (t : Table κ ν) (k : κ) : Table κ ν :=
  match t.find? k with
  | some v => t.insert k v
  | none => t

/-- A value written for a key, whose row comes first; a new key pushes the last
row out where there are `capacity` rows. -/
def upsert [DecidableEq κ] (t : Table κ ν) (capacity : Nat) (k : κ) (v : ν) : Table κ ν :=
  if (t.find? k).isNone ∧ capacity ≤ t.size then t.dropLast.insert k v else t.insert k v

end Table

namespace Slab

variable {κ ν : Type} [DecidableEq κ]

/-! ## What a slab holds -/

/-- The index finds each key at the place of its entry. -/
structure Indexed (s : Slab κ ν) : Prop where
  find?_iff : ∀ k i, s.index.find? k = some i ↔ ∃ v, s.entryAt? i = some (k, v)
  proper : s.index.Proper
  size_eq : s.index.size = s.nodes.size

/-- A slab holds a table: its thread goes through the rows in order. -/
structure Holds (s : Slab κ ν) (places : List Nat) (t : Table κ ν) : Prop where
  indexed : s.Indexed
  threaded : s.Threaded places
  mem_iff : ∀ i, i ∈ places ↔ i < s.nodes.size
  rows_eq : places.map s.entryAt? = t.rows.map some

theorem holds_empty : Holds ({} : Slab κ ν) [] {} where
  indexed := ⟨by
    intro k i
    simp [entryAt?], Table.proper_empty, rfl⟩
  threaded := threaded_empty
  mem_iff i := by simp
  rows_eq := rfl

theorem Indexed.of_sameEntries {s s' : Slab κ ν} (h : s.Indexed) (hsame : SameEntries s s') :
    s'.Indexed where
  find?_iff k i := by
    rw [hsame.index_eq, hsame.entryAt?_eq]
    exact h.find?_iff k i
  proper := by
    rw [hsame.index_eq]
    exact h.proper
  size_eq := by
    rw [hsame.index_eq, hsame.size_eq]
    exact h.size_eq

variable {s : Slab κ ν} {places : List Nat} {t : Table κ ν} {k : κ} {v : ν} {p : Nat}

namespace Holds

/-- A key has one row, as its entry has one place. -/
theorem table_proper (h : s.Holds places t) : t.Proper := by
  have hkeys : ∀ i ∈ places, ∀ j ∈ places,
      (s.entryAt? i).map Prod.fst = (s.entryAt? j).map Prod.fst → i = j := by
    intro i hi j hj heq
    obtain ⟨node, hnode⟩ := h.threaded.exists_node hi
    have hentry : s.entryAt? i = some (node.key, node.value) := by
      rw [entryAt?, hnode]
      rfl
    rw [hentry, Option.map_some] at heq
    obtain ⟨row, hrow, hkey⟩ := Option.map_eq_some_iff.mp heq.symm
    have hfind := (h.indexed.find?_iff node.key i).mpr ⟨_, hentry⟩
    have hfind' := (h.indexed.find?_iff node.key j).mpr
      ⟨row.2, hrow.trans (congrArg some (Prod.ext hkey rfl))⟩
    rw [hfind] at hfind'
    exact Option.some.inj hfind'
  have hnodup : (places.map fun i => (s.entryAt? i).map Prod.fst).Nodup :=
    (List.nodup_map_iff_inj_on h.threaded.nodup).mpr hkeys
  have hsome : (places.map fun i => (s.entryAt? i).map Prod.fst) =
      t.keys.map some := by
    rw [← Function.comp_def, ← List.map_map, h.rows_eq, Table.keys, List.map_map, List.map_map]
    rfl
  rw [hsome] at hnodup
  exact hnodup.of_map some

theorem length_rows (h : s.Holds places t) : t.size = s.nodes.size := by
  have hlength := congrArg List.length h.rows_eq
  rw [List.length_map, List.length_map] at hlength
  have hperm : places.Perm (List.range s.nodes.size) := by
    apply (List.perm_ext_iff_of_nodup h.threaded.nodup List.nodup_range).mpr
    intro i
    rw [h.mem_iff, List.mem_range]
  rw [Table.size, ← hlength, hperm.length_eq, List.length_range]

theorem size_eq (h : s.Holds places t) : s.size = t.size := by
  rw [size, h.indexed.size_eq, h.length_rows]

/-- The entry at a place is a row, with the rows before and behind it in the
order of the thread. -/
theorem exists_split (h : s.Holds places t) (hp : s.entryAt? p = some (k, v)) :
    ∃ before behind xs ys, places = before ++ p :: behind ∧
      t.rows = xs ++ (k, v) :: ys ∧ before.map s.entryAt? = xs.map some ∧
      behind.map s.entryAt? = ys.map some := by
  have hlt : p < s.nodes.size := by
    obtain ⟨node, hnode, -⟩ := entryAt?_eq_some hp
    exact (Array.getElem?_eq_some_iff.mp hnode).1
  obtain ⟨before, behind, rfl⟩ := List.append_of_mem ((h.mem_iff p).mpr hlt)
  have hrows := h.rows_eq
  rw [List.map_append, List.map_cons, hp] at hrows
  obtain ⟨xs, rest, hsplit, hxs, hrest⟩ := List.append_eq_map_iff.mp hrows
  obtain ⟨row, ys, rfl, hrow, hys⟩ := List.map_eq_cons_iff.mp hrest
  cases hrow
  exact ⟨before, behind, xs, ys, rfl, hsplit, hxs.symm, hys.symm⟩

/-- What the index knows of a key is what the table says. -/
theorem find?_index (h : s.Holds places t) (k : κ) :
    match s.index.find? k with
    | none => t.find? k = none
    | some p => ∃ v, s.entryAt? p = some (k, v) ∧ t.find? k = some v := by
  cases hk : s.index.find? k with
  | none =>
      simp only
      rw [Table.find?_eq_none_iff, Table.keys, List.mem_map]
      rintro ⟨⟨k', v⟩, hrow, rfl⟩
      have hmem : some (k', v) ∈ places.map s.entryAt? := by
        rw [h.rows_eq]
        exact List.mem_map_of_mem hrow
      obtain ⟨i, -, hi⟩ := List.mem_map.mp hmem
      rw [(h.indexed.find?_iff k' i).mpr ⟨v, hi⟩] at hk
      cases hk
  | some p =>
      obtain ⟨v, hp⟩ := (h.indexed.find?_iff k p).mp hk
      obtain ⟨-, -, xs, ys, -, hrows, -⟩ := h.exists_split hp
      exact ⟨v, hp, h.table_proper.find?_of_rows_eq hrows⟩

/-- Looking a key up finds its row. -/
theorem find?_eq (h : s.Holds places t) (k : κ) : s.find? k = some (t.find? k) := by
  have hindex := h.find?_index k
  rw [Slab.find?]
  cases hk : s.index.find? k with
  | none =>
      rw [hk] at hindex
      rw [hindex]
  | some p =>
      rw [hk] at hindex
      obtain ⟨v, hp, hv⟩ := hindex
      obtain ⟨node, hnode, -, hvalue⟩ := entryAt?_eq_some hp
      simp only [hv, hnode, Option.map_some, hvalue]

/-! ## Moving to the front -/

/-- Moving the entry at a place to the front puts its row first. -/
theorem promote? (h : s.Holds places t) (hp : s.entryAt? p = some (k, v)) :
    ∃ s' places', s.promote? p = some s' ∧ s'.Holds places' (t.insert k v) := by
  obtain ⟨before, behind, xs, ys, rfl, hrows, hxs, hys⟩ := h.exists_split hp
  have hlt : p < s.nodes.size := (h.mem_iff p).mp (List.mem_append_right _ List.mem_cons_self)
  obtain ⟨s', hpromote, hsame, hthreaded⟩ := h.threaded.promote? hlt
  refine ⟨s', _, hpromote, h.indexed.of_sameEntries hsame, hthreaded, fun i => ?_, ?_⟩
  · rw [hsame.size_eq, ← h.mem_iff i]
    exact (List.perm_middle.mem_iff).symm
  · have herase := h.table_proper.rows_erase_of_rows_eq hrows
    have hentries : s'.entryAt? = s.entryAt? := funext hsame.entryAt?_eq
    rw [Table.insert, herase, hentries, List.map_cons, List.map_append, hp, hxs, hys,
      List.map_cons, List.map_append]

theorem touch? (h : s.Holds places t) (k : κ) :
    ∃ s' places', s.touch? k = some s' ∧ s'.Holds places' (t.promote k) := by
  have hindex := h.find?_index k
  rw [Slab.touch?, Table.promote]
  cases hk : s.index.find? k with
  | none =>
      rw [hk] at hindex
      rw [hindex]
      exact ⟨s, places, rfl, h⟩
  | some p =>
      rw [hk] at hindex
      obtain ⟨v, hp, hv⟩ := hindex
      rw [hv]
      exact h.promote? hp

/-- Writing a value for an entry leaves the thread and the index as they are. -/
theorem change?_value (h : s.Holds places t) (hp : s.entryAt? p = some (k, v)) (v' : ν) :
    ∃ s' t', (s.change? p fun node => { node with value := v' }) = some s' ∧
      s'.Holds places t' ∧ s'.entryAt? p = some (k, v') ∧
      (t'.erase k).rows = (t.erase k).rows := by
  obtain ⟨node, hnode, hkey, -⟩ := entryAt?_eq_some hp
  obtain ⟨hlt, -⟩ := Array.getElem?_eq_some_iff.mp hnode
  obtain ⟨before, behind, xs, ys, rfl, hrows, hxs, hys⟩ := h.exists_split hp
  have hself : (s.nodes.set! p { node with value := v' })[p]? =
      some { node with value := v' } := by
    rw [Array.set!_eq_setIfInBounds, Array.getElem?_setIfInBounds_self_of_lt hlt]
  have hother : ∀ i, i ≠ p →
      (s.nodes.set! p { node with value := v' })[i]? = s.nodes[i]? := by
    intro i hi
    rw [Array.set!_eq_setIfInBounds, Array.getElem?_setIfInBounds_ne hi.symm]
  have hentry : ({ s with nodes := s.nodes.set! p { node with value := v' } } :
      Slab κ ν).entryAt? p = some (k, v') := by
    rw [entryAt?, hself, Option.map_some, hkey]
  have hentries : ∀ i, i ≠ p → ({ s with nodes := s.nodes.set! p { node with value := v' } } :
      Slab κ ν).entryAt? i = s.entryAt? i := by
    intro i hi
    rw [entryAt?, entryAt?, hother i hi]
  have hnotMem := List.nodup_middle.mp h.threaded.nodup
  rw [List.nodup_cons, List.mem_append, not_or] at hnotMem
  have ht' : (⟨xs ++ (k, v') :: ys⟩ : Table κ ν).Proper := by
    have hproper := h.table_proper
    rw [Table.Proper, Table.keys, hrows, List.map_append, List.map_cons] at hproper
    rw [Table.Proper, Table.keys, List.map_append, List.map_cons]
    exact hproper
  refine ⟨{ s with nodes := s.nodes.set! p { node with value := v' } },
    ⟨xs ++ (k, v') :: ys⟩, ?_, ⟨⟨fun k' i => ?_, h.indexed.proper, ?_⟩,
      ⟨h.threaded.nodup, ?_, h.threaded.newest_eq, h.threaded.oldest_eq⟩, fun i => ?_, ?_⟩,
    hentry, ?_⟩
  · rw [change?, hnode]
  · rw [h.indexed.find?_iff]
    by_cases hi : i = p
    · subst hi
      rw [hentry, hp]
      simp
    · rw [hentries i hi]
  · rw [h.indexed.size_eq, Array.set!_eq_setIfInBounds, Array.size_setIfInBounds]
  · refine h.threaded.linked.of_links fun i _ node' hnode' => ?_
    by_cases hi : i = p
    · subst hi
      rw [hnode] at hnode'
      cases hnode'
      exact ⟨_, hself, rfl, rfl⟩
    · exact ⟨node', (hother i hi).trans hnode', rfl, rfl⟩
  · rw [h.mem_iff i, Array.set!_eq_setIfInBounds, Array.size_setIfInBounds]
  · rw [List.map_append, List.map_cons, hentry, List.map_append, List.map_cons, ← hxs, ← hys,
      List.map_congr_left fun i hi => hentries i (ne_of_mem_of_not_mem hi hnotMem.1.1),
      List.map_congr_left fun i hi => hentries i (ne_of_mem_of_not_mem hi hnotMem.1.2)]
  · rw [ht'.rows_erase_of_rows_eq rfl, h.table_proper.rows_erase_of_rows_eq hrows]

/-- Replacing the value of a key puts its row first. -/
theorem replace? (h : s.Holds places t) (hp : s.entryAt? p = some (k, v)) (v' : ν) :
    ∃ s' places', s.replace? p v' = some s' ∧ s'.Holds places' (t.insert k v') := by
  obtain ⟨s₁, t₁, hchange, hholds₁, hp₁, herase⟩ := h.change?_value hp v'
  obtain ⟨s₂, places₂, hpromote, hholds₂⟩ := hholds₁.promote? hp₁
  refine ⟨s₂, places₂, ?_, ?_⟩
  · rw [Slab.replace?, hchange, Option.bind_some, hpromote]
  · rw [Table.insert, ← herase]
    exact hholds₂

/-- An entry for a new key goes to the end of the array and to the front of the
thread. -/
theorem push? (h : s.Holds places t) (hk : t.find? k = none) (v : ν) :
    ∃ s' places', s.push? k v = some s' ∧ s'.Holds places' (t.insert k v) := by
  have hindex : s.index.find? k = none := by
    have hfind := h.find?_index k
    cases hp : s.index.find? k with
    | none => rfl
    | some p =>
        rw [hp] at hfind
        obtain ⟨v, -, hv⟩ := hfind
        rw [hk] at hv
        cases hv
  have hnodes : ∀ i, (s.nodes.push { key := k, value := v })[i]? =
      if i = s.nodes.size then some { key := k, value := v } else s.nodes[i]? :=
    fun i => Array.getElem?_push
  have hnotMem : s.nodes.size ∉ places := by
    rw [h.mem_iff]
    exact Nat.lt_irrefl _
  have hold : ∀ i ∈ places,
      (s.nodes.push { key := k, value := v })[i]? = s.nodes[i]? := by
    intro i hi
    rw [hnodes, if_neg (ne_of_mem_of_not_mem hi hnotMem)]
  have hindexed : ({ s with
      nodes := s.nodes.push { key := k, value := v },
      index := s.index.insert k s.nodes.size } : Slab κ ν).Indexed := by
    refine ⟨fun k' i => ?_, h.indexed.proper.insert k _, ?_⟩
    · simp only [Table.find?_insert, entryAt?, hnodes]
      by_cases hi : i = s.nodes.size
      · subst hi
        rw [if_pos rfl]
        by_cases hk' : k' = k
        · subst hk'
          simp
        · rw [if_neg hk', h.indexed.find?_iff, entryAt?,
            Array.getElem?_eq_none (Nat.le_refl _)]
          simp [Ne.symm hk']
      · rw [if_neg hi, ← entryAt?]
        by_cases hk' : k' = k
        · subst hk'
          rw [if_pos rfl, ← h.indexed.find?_iff, hindex]
          simp [Ne.symm hi]
        · rw [if_neg hk', h.indexed.find?_iff]
    · simp only [Table.size_insert, Table.erase_of_find?_eq_none hindex, h.indexed.size_eq,
        Array.size_push]
  have hthreaded : ({ s with
      nodes := s.nodes.push { key := k, value := v },
      index := s.index.insert k s.nodes.size } : Slab κ ν).Threaded places :=
    ⟨h.threaded.nodup, h.threaded.linked.congr hold, h.threaded.newest_eq,
      h.threaded.oldest_eq⟩
  obtain ⟨s', hpush, hsame, hthreaded'⟩ := hthreaded.pushFront? hnotMem (by simp)
  refine ⟨s', s.nodes.size :: places, hpush, hindexed.of_sameEntries hsame, hthreaded',
    fun i => ?_, ?_⟩
  · rw [hsame.size_eq, Array.size_push, List.mem_cons, h.mem_iff]
    omega
  · have hentries : s'.entryAt? = _ := funext hsame.entryAt?_eq
    have hrows : (t.insert k v).rows = (k, v) :: t.rows := by
      rw [Table.insert, Table.erase_of_find?_eq_none hk]
    rw [hentries, List.map_cons, hrows, List.map_cons, ← h.rows_eq]
    congr 1
    · simp only [entryAt?, hnodes, if_true, Option.map_some]
    · exact List.map_congr_left fun i hi => by rw [entryAt?, entryAt?, hold i hi]

end Holds

/-! ## Taking entries out -/

/-- The slab whose array lost the entry at a place, which the last entry took. -/
def withoutAt (s : Slab κ ν) (place : Nat) (k : κ) : Slab κ ν :=
  { s with nodes := swapOut s.nodes place, index := s.index.erase k }

theorem entryAt?_withoutAt (s : Slab κ ν) {p : Nat} (hp : p < s.nodes.size) (k : κ) (i : Nat) :
    (s.withoutAt p k).entryAt? i =
      if i < s.nodes.size - 1 then
        (if i = p then s.entryAt? (s.nodes.size - 1) else s.entryAt? i)
      else none := by
  rw [entryAt?, withoutAt, getElem?_swapOut s.nodes hp]
  by_cases hi : i < s.nodes.size - 1
  · rw [if_pos hi, if_pos hi]
    by_cases hip : i = p
    · rw [if_pos hip, if_pos hip, entryAt?]
    · rw [if_neg hip, if_neg hip, entryAt?]
  · rw [if_neg hi, if_neg hi]
    rfl

/-- Without its last entry, the array needs no entry elsewhere. -/
theorem Indexed.withoutLast (h : s.Indexed) (hp : s.entryAt? p = some (k, v))
    (hlast : p = s.nodes.size - 1) (hlt : p < s.nodes.size) :
    (s.withoutAt p k).Indexed where
  find?_iff k' i := by
    have hk := (h.find?_iff k p).mpr ⟨v, hp⟩
    rw [entryAt?_withoutAt s hlt, withoutAt, Table.find?_erase]
    by_cases hi : i < s.nodes.size - 1
    · have hip : i ≠ p := by omega
      rw [if_pos hi, if_neg hip, ← h.find?_iff]
      by_cases hk' : k' = k
      · rw [if_pos hk', hk', hk, Option.some_inj]
        constructor
        · intro hnone
          cases hnone
        · intro heq
          omega
      · rw [if_neg hk']
    · rw [if_neg hi]
      constructor
      · intro hfind
        by_cases hk' : k' = k
        · rw [if_pos hk'] at hfind
          cases hfind
        · rw [if_neg hk'] at hfind
          obtain ⟨v', hv'⟩ := (h.find?_iff k' i).mp hfind
          obtain ⟨node, hnode, -⟩ := entryAt?_eq_some hv'
          obtain ⟨hlt', -⟩ := Array.getElem?_eq_some_iff.mp hnode
          have hip : i = p := by omega
          rw [hip, hp] at hv'
          cases hv'
          exact (hk' rfl).elim
      · rintro ⟨v', hv'⟩
        cases hv'
  proper := h.proper.erase k
  size_eq := by
    have hsize := h.proper.size_erase ((h.find?_iff k p).mpr ⟨v, hp⟩)
    rw [h.size_eq] at hsize
    simp only [Slab.withoutAt, size_swapOut s.nodes hlt]
    omega

/-- The index follows the last entry to its new place. -/
theorem Indexed.withoutAt (h : s.Indexed) (hp : s.entryAt? p = some (k, v))
    {row : κ × ν} (hrow : s.entryAt? (s.nodes.size - 1) = some row)
    (hlt : p < s.nodes.size - 1) :
    ({ s.withoutAt p k with
      index := (s.index.erase k).modify row.1 fun _ => p } : Slab κ ν).Indexed where
  find?_iff k' i := by
    have hk := (h.find?_iff k p).mpr ⟨v, hp⟩
    have hlast := (h.find?_iff row.1 (s.nodes.size - 1)).mpr ⟨row.2, hrow⟩
    have hne : row.1 ≠ k := by
      intro heq
      rw [heq, hk] at hlast
      cases hlast
      omega
    have hentry : ({ s.withoutAt p k with
        index := (s.index.erase k).modify row.1 fun _ => p } : Slab κ ν).entryAt? i =
          (s.withoutAt p k).entryAt? i := rfl
    rw [hentry, entryAt?_withoutAt s (by omega)]
    simp only [Table.find?_modify, Table.find?_erase, if_neg hne, hlast, Option.map_some]
    by_cases hi : i < s.nodes.size - 1
    · rw [if_pos hi]
      by_cases hip : i = p
      · subst hip
        rw [if_pos rfl, hrow]
        by_cases hk' : k' = row.1
        · rw [if_pos hk', hk']
          exact ⟨fun _ => ⟨row.2, rfl⟩, fun _ => rfl⟩
        · rw [if_neg hk']
          constructor
          · intro hfind
            by_cases hkk : k' = k
            · rw [if_pos hkk] at hfind
              cases hfind
            · rw [if_neg hkk] at hfind
              obtain ⟨v', hv'⟩ := (h.find?_iff k' i).mp hfind
              rw [hp] at hv'
              cases hv'
              exact (hkk rfl).elim
          · rintro ⟨v', hv'⟩
            cases hv'
            exact (hk' rfl).elim
      · rw [if_neg hip, ← h.find?_iff]
        by_cases hk' : k' = row.1
        · rw [if_pos hk', hk', hlast, Option.some_inj, Option.some_inj]
          omega
        · rw [if_neg hk']
          by_cases hkk : k' = k
          · rw [if_pos hkk, hkk, hk, Option.some_inj]
            constructor
            · intro hnone
              cases hnone
            · intro heq
              exact (hip heq.symm).elim
          · rw [if_neg hkk]
    · rw [if_neg hi]
      constructor
      · intro hfind
        by_cases hk' : k' = row.1
        · rw [if_pos hk'] at hfind
          cases hfind
          omega
        · rw [if_neg hk'] at hfind
          by_cases hkk : k' = k
          · rw [if_pos hkk] at hfind
            cases hfind
          · rw [if_neg hkk] at hfind
            obtain ⟨v', hv'⟩ := (h.find?_iff k' i).mp hfind
            obtain ⟨node, hnode, -⟩ := entryAt?_eq_some hv'
            obtain ⟨hlt', -⟩ := Array.getElem?_eq_some_iff.mp hnode
            have hil : i = s.nodes.size - 1 := by omega
            rw [hil, hrow] at hv'
            cases hv'
            exact (hk' rfl).elim
      · rintro ⟨v', hv'⟩
        cases hv'
  proper := (h.proper.erase k).modify row.1 _
  size_eq := by
    have hsize := h.proper.size_erase ((h.find?_iff k p).mpr ⟨v, hp⟩)
    rw [h.size_eq] at hsize
    simp only [(h.proper.erase k).size_modify, Slab.withoutAt,
      size_swapOut s.nodes (Nat.lt_of_lt_of_le hlt (Nat.sub_le _ _))]
    omega

/-- Once its neighbours and the index know of its new place, the last entry is
threaded there. -/
theorem Threaded.repoint? {us vs : List Nat} {row : κ × ν}
    (h : s.Threaded (us ++ (s.nodes.size - 1) :: vs)) (hlt : p < s.nodes.size - 1)
    (hnotMem : p ∉ us ++ (s.nodes.size - 1) :: vs)
    (hrow : s.entryAt? (s.nodes.size - 1) = some row) :
    ∃ s', (s.withoutAt p k).repoint? p = some s' ∧ s'.Threaded (us ++ p :: vs) ∧
      s'.index = (s.index.erase k).modify row.1 (fun _ => p) ∧
      s'.nodes.size = s.nodes.size - 1 ∧
      ∀ i, s'.entryAt? i = (s.withoutAt p k).entryAt? i := by
  have hp : p < s.nodes.size := by omega
  obtain ⟨hus, hlvs, hdisjoint⟩ := List.nodup_append.mp h.nodup
  obtain ⟨hlvs', hvs⟩ := List.nodup_cons.mp hlvs
  rw [List.mem_append, List.mem_cons, not_or, not_or] at hnotMem
  obtain ⟨hpus, -, hpvs⟩ := hnotMem
  have hsize := size_swapOut s.nodes hp
  have hnodes := getElem?_swapOut s.nodes hp
  have hkeep : ∀ i, i ≠ p → i ≠ s.nodes.size - 1 →
      (swapOut s.nodes p)[i]? = s.nodes[i]? := by
    intro i hip hil
    rw [hnodes]
    by_cases hi : i < s.nodes.size - 1
    · rw [if_pos hi, if_neg hip]
    · rw [if_neg hi, Array.getElem?_eq_none (by omega)]
  have hkeepus : ∀ i ∈ us, (swapOut s.nodes p)[i]? = s.nodes[i]? := fun i hi =>
    hkeep i (ne_of_mem_of_not_mem hi hpus) (hdisjoint i hi _ List.mem_cons_self)
  have hkeepvs : ∀ i ∈ vs, (swapOut s.nodes p)[i]? = s.nodes[i]? := fun i hi =>
    hkeep i (ne_of_mem_of_not_mem hi hpvs) (ne_of_mem_of_not_mem hi hlvs')
  obtain ⟨hbefore, ⟨node, hnode, hnewer, holder⟩, hbehind⟩ := (linked_append ..).mp h.linked
  rw [Option.or_none] at hbefore hnewer holder
  have hnode₂ : (s.withoutAt p k).nodes[p]? = some node := by
    rw [withoutAt, hnodes, if_pos hlt, if_pos rfl, hnode]
  have hkey : node.key = row.1 := by
    obtain ⟨node', hnode', hkey', -⟩ := entryAt?_eq_some hrow
    rw [hnode] at hnode'
    cases hnode'
    exact hkey'
  have hnewest : (s.withoutAt p k).newest = us.head?.or (some (s.nodes.size - 1)) := by
    rw [withoutAt, h.newest_eq, List.head?_append]
    rfl
  have holdest : (s.withoutAt p k).oldest = vs.getLast?.or (some (s.nodes.size - 1)) := by
    rw [withoutAt, h.oldest_eq, List.getLast?_append, List.getLast?_cons]
    cases vs.getLast? with
    | none => rfl
    | some last => rfl
  obtain ⟨s₁, hlink₁, hsame₁, hlinked₁, hframe₁, hnewest₁, holdest₁⟩ :=
    linkNewer?_stretch hus (hbefore.congr hkeepus : Linked (s.withoutAt p k).nodes _ _ _)
      hnewest (some p)
  have hbehind₁ : Linked s₁.nodes (some (s.nodes.size - 1)) vs none := by
    refine hbehind.congr fun i hi => ?_
    rw [hframe₁ i fun hmem => hdisjoint i hmem i (List.mem_cons_of_mem _ hi) rfl]
    exact hkeepvs i hi
  obtain ⟨s₂, hlink₂, hsame₂, hlinked₂, hframe₂, hnewest₂, holdest₂⟩ :=
    linkOlder?_stretch hvs hbehind₁ (holdest₁.trans holdest) (some p)
  have hsame := hsame₁.trans hsame₂
  have hnode₃ : s₂.nodes[p]? = some node := by
    rw [hframe₂ p hpvs, hframe₁ p hpus, hnode₂]
  refine ⟨{ s₂ with index := s₂.index.modify node.key fun _ => p }, ?_,
    ⟨?_, ?_, ?_, ?_⟩, ?_, ?_, hsame.entryAt?_eq⟩
  · have hlt' : p < (s.withoutAt p k).nodes.size := by
      rw [withoutAt, hsize]
      exact hlt
    rw [Slab.repoint?, if_pos hlt']
    simp only [hnode₂, hnewer, holder, hlink₁, hlink₂, Option.bind_eq_bind, Option.bind_some]
    rfl
  · rw [List.nodup_middle, List.nodup_cons, List.mem_append, not_or]
    exact ⟨⟨hpus, hpvs⟩, (List.nodup_cons.mp (List.nodup_middle.mp h.nodup)).2⟩
  · refine (linked_append ..).mpr ⟨?_, ⟨node, hnode₃, ?_, ?_⟩, hlinked₂⟩
    · refine hlinked₁.congr fun i hi => hframe₂ i ?_
      exact fun hmem => hdisjoint i hi i (List.mem_cons_of_mem _ hmem) rfl
    · rw [hnewer, Option.or_none]
    · rw [holder, Option.or_none]
  · simp only [hnewest₂, hnewest₁, List.head?_append, List.head?_cons]
  · simp only [holdest₂, List.getLast?_append, List.getLast?_cons]
    cases vs.getLast? with
    | none => rfl
    | some last => rfl
  · simp only [hsame.index_eq, withoutAt, hkey]
  · simp only [hsame.size_eq, withoutAt, hsize]

/-- The thread goes past one entry, which still has its place. -/
structure Detached (s : Slab κ ν) (p : Nat) (k : κ) (v : ν) (places : List Nat)
    (t : Table κ ν) : Prop where
  indexed : s.Indexed
  threaded : s.Threaded places
  entryAt?_eq : s.entryAt? p = some (k, v)
  mem_iff : ∀ i, i ∈ places ↔ i < s.nodes.size ∧ i ≠ p
  rows_eq : places.map s.entryAt? = t.rows.map some

namespace Detached

theorem lt_size (h : s.Detached p k v places t) : p < s.nodes.size := by
  obtain ⟨node, hnode, -⟩ := entryAt?_eq_some h.entryAt?_eq
  exact (Array.getElem?_eq_some_iff.mp hnode).1

/-- The last place can be given up at once. -/
theorem holds_withoutAt (h : s.Detached p k v places t) (hlast : p = s.nodes.size - 1) :
    (s.withoutAt p k).Holds places t := by
  have hlt := h.lt_size
  have hkept : ∀ i ∈ places, i < s.nodes.size - 1 ∧ i ≠ p := by
    intro i hi
    obtain ⟨hi, hne⟩ := (h.mem_iff i).mp hi
    exact ⟨by omega, hne⟩
  refine ⟨h.indexed.withoutLast h.entryAt?_eq hlast hlt,
    ⟨h.threaded.nodup, ?_, h.threaded.newest_eq, h.threaded.oldest_eq⟩, fun i => ?_, ?_⟩
  · refine h.threaded.linked.congr fun i hi => ?_
    obtain ⟨hi, hne⟩ := hkept i hi
    rw [withoutAt, getElem?_swapOut s.nodes hlt, if_pos hi, if_neg hne]
  · rw [h.mem_iff, withoutAt, size_swapOut s.nodes hlt]
    omega
  · rw [← h.rows_eq]
    refine List.map_congr_left fun i hi => ?_
    obtain ⟨hi, hne⟩ := hkept i hi
    rw [entryAt?_withoutAt s hlt, if_pos hi, if_neg hne]

/-- Any other place is given to the last entry. -/
theorem exists_repoint? (h : s.Detached p k v places t) (hlt : p < s.nodes.size - 1) :
    ∃ s' places', (s.withoutAt p k).repoint? p = some s' ∧ s'.Holds places' t := by
  have hp := h.lt_size
  have hlastMem : s.nodes.size - 1 ∈ places := (h.mem_iff _).mpr ⟨by omega, by omega⟩
  obtain ⟨us, vs, rfl⟩ := List.append_of_mem hlastMem
  have hmem := h.mem_iff
  have hrow : ∃ row, s.entryAt? (s.nodes.size - 1) = some row := by
    obtain ⟨last, hlastNode⟩ := h.threaded.exists_node
      (List.mem_append_right us List.mem_cons_self)
    exact ⟨(last.key, last.value), by rw [entryAt?, hlastNode]; rfl⟩
  obtain ⟨row, hrow⟩ := hrow
  have hnotMem : p ∉ us ++ (s.nodes.size - 1) :: vs := fun hpmem => ((hmem p).mp hpmem).2 rfl
  obtain ⟨s', hrepoint, hthreaded, hindex, hsize, hentries⟩ :=
    h.threaded.repoint? hlt hnotMem hrow
  have hindexed := h.indexed.withoutAt h.entryAt?_eq hrow hlt
  have hnodup := List.nodup_cons.mp (List.nodup_middle.mp h.threaded.nodup)
  refine ⟨s', us ++ p :: vs, hrepoint, ⟨fun k' i => ?_, ?_, ?_⟩, hthreaded,
    fun i => ?_, ?_⟩
  · rw [hindex, hentries]
    exact hindexed.find?_iff k' i
  · rw [hindex]
    exact hindexed.proper
  · rw [hindex, hsize, hindexed.size_eq]
    exact size_swapOut s.nodes hp
  · rw [hsize, List.perm_middle.mem_iff, List.mem_cons]
    have hi := hmem i
    rw [List.perm_middle.mem_iff, List.mem_cons] at hi
    constructor
    · rintro (rfl | hmem')
      · exact hlt
      · obtain ⟨hi', -⟩ := hi.mp (Or.inr hmem')
        have hne := ne_of_mem_of_not_mem hmem' hnodup.1
        omega
    · intro hi'
      rcases eq_or_ne i p with hip | hip
      · exact Or.inl hip
      · rcases hi.mpr ⟨by omega, hip⟩ with heq | hmem'
        · omega
        · exact Or.inr hmem'
  · rw [← h.rows_eq, List.map_append, List.map_append, List.map_cons, List.map_cons]
    have hold : ∀ i, i ∈ us ++ vs → s'.entryAt? i = s.entryAt? i := by
      intro i hi
      have hne := ne_of_mem_of_not_mem hi hnodup.1
      obtain ⟨hi', hip⟩ := (hmem i).mp
        (List.perm_middle.mem_iff.mpr (List.mem_cons_of_mem _ hi))
      rw [hentries, entryAt?_withoutAt s hp, if_pos (by omega), if_neg hip]
    have hmoved : s'.entryAt? p = s.entryAt? (s.nodes.size - 1) := by
      rw [hentries, entryAt?_withoutAt s hp, if_pos hlt, if_pos rfl]
    rw [hmoved, List.map_congr_left fun i hi => hold i (List.mem_append_left vs hi),
      List.map_congr_left fun i hi => hold i (List.mem_append_right us hi)]

end Detached

namespace Holds

/-- The thread can be led past an entry. -/
theorem exists_detached (h : s.Holds places t) (hp : s.entryAt? p = some (k, v)) :
    ∃ s₁ places₁, s.detach? p = some s₁ ∧ s₁.Detached p k v places₁ (t.erase k) := by
  obtain ⟨before, behind, xs, ys, rfl, hrows, hxs, hys⟩ := h.exists_split hp
  have hnodup := List.nodup_cons.mp (List.nodup_middle.mp h.threaded.nodup)
  obtain ⟨s₁, hdetach, hsame, hthreaded⟩ := h.threaded.detach?
  refine ⟨s₁, before ++ behind, hdetach, h.indexed.of_sameEntries hsame, hthreaded,
    (hsame.entryAt?_eq p).trans hp, fun i => ?_, ?_⟩
  · rw [hsame.size_eq, ← h.mem_iff i, List.perm_middle.mem_iff, List.mem_cons]
    constructor
    · intro hi
      exact ⟨Or.inr hi, ne_of_mem_of_not_mem hi hnodup.1⟩
    · rintro ⟨rfl | hi, hne⟩
      · exact (hne rfl).elim
      · exact hi
  · have hentries : s₁.entryAt? = s.entryAt? := funext hsame.entryAt?_eq
    rw [h.table_proper.rows_erase_of_rows_eq hrows, hentries, List.map_append, hxs, hys,
      List.map_append]

/-- Taking the entry at a place out takes its row out. -/
theorem removeAt? (h : s.Holds places t) (hp : s.entryAt? p = some (k, v)) :
    ∃ s' places', s.removeAt? p = some ((k, v), s') ∧ s'.Holds places' (t.erase k) := by
  obtain ⟨s₁, places₁, hdetach, hdetached⟩ := h.exists_detached hp
  have hlt := hdetached.lt_size
  obtain ⟨node, hnode, hkey, hvalue⟩ := entryAt?_eq_some hdetached.entryAt?_eq
  have hremove : s.removeAt? p = ((s₁.withoutAt p k).repoint? p).map ((k, v), ·) := by
    simp only [Slab.removeAt?, hdetach, hnode, hkey, hvalue, Option.bind_eq_bind,
      Option.bind_some]
    rw [← withoutAt]
    cases (s₁.withoutAt p k).repoint? p with
    | none => rfl
    | some s' => rfl
  rw [hremove]
  by_cases hlast : p = s₁.nodes.size - 1
  · refine ⟨s₁.withoutAt p k, places₁, ?_, hdetached.holds_withoutAt hlast⟩
    rw [Slab.repoint?, if_neg, Option.map_some]
    rw [withoutAt, size_swapOut s₁.nodes hlt]
    omega
  · obtain ⟨s₂, places₂, hrepoint, hholds⟩ := hdetached.exists_repoint? (by omega)
    exact ⟨s₂, places₂, by rw [hrepoint]; rfl, hholds⟩

/-- Taking a key's entry out takes its row out. -/
theorem remove? (h : s.Holds places t) (k : κ) :
    ∃ s' places', s.remove? k = some (t.find? k, s') ∧ s'.Holds places' (t.erase k) := by
  have hindex := h.find?_index k
  rw [Slab.remove?]
  cases hk : s.index.find? k with
  | none =>
      rw [hk] at hindex
      rw [hindex, Table.erase_of_find?_eq_none hindex]
      exact ⟨s, places, rfl, h⟩
  | some p =>
      rw [hk] at hindex
      obtain ⟨v, hp, hv⟩ := hindex
      obtain ⟨s', places', hremove, hholds⟩ := h.removeAt? hp
      refine ⟨s', places', ?_, hholds⟩
      simp only [hremove, hv, Option.map_some]

/-- The entry that has to go first is the last row. -/
theorem removeOldest? (h : s.Holds places t) :
    ∃ s' places', s.removeOldest? = some (t.rows.getLast?, s') ∧
      s'.Holds places' t.dropLast := by
  rw [Slab.removeOldest?, h.threaded.oldest_eq]
  rcases List.eq_nil_or_concat places with rfl | ⟨init, p, rfl⟩
  · have hrows : t.rows = [] := List.map_eq_nil_iff.mp h.rows_eq.symm
    have hdropLast : t.dropLast = t := by
      rw [Table.dropLast, hrows]
      cases t
      cases hrows
      rfl
    rw [hrows, hdropLast]
    exact ⟨s, [], rfl, h⟩
  · rw [List.concat_eq_append] at h ⊢
    obtain ⟨node, hnode⟩ := h.threaded.exists_node (List.mem_append_right init List.mem_cons_self)
    have hp : s.entryAt? p = some (node.key, node.value) := by
      rw [entryAt?, hnode]
      rfl
    have hsplit := h.rows_eq
    rw [List.map_append, List.map_singleton, hp] at hsplit
    obtain ⟨xs, rest, hrows, -, hrest⟩ := List.append_eq_map_iff.mp hsplit
    obtain ⟨row, ys, rfl, hrow, hys⟩ := List.map_eq_cons_iff.mp hrest
    cases hrow
    cases List.map_eq_nil_iff.mp hys
    obtain ⟨s', places', hremove, hholds⟩ := h.removeAt? hp
    refine ⟨s', places', ?_, ?_⟩
    · rw [List.getLast?_concat, hrows, List.getLast?_concat]
      simp only [hremove, Option.map_some]
    · have hdropLast : t.dropLast = t.erase node.key := by
        rw [Table.dropLast, hrows, List.dropLast_concat]
        have herase := h.table_proper.rows_erase_of_rows_eq hrows
        rw [List.append_nil] at herase
        rw [← herase]
      rw [hdropLast]
      exact hholds

/-- Taking several entries out takes the last rows out, from the last one on. -/
theorem removeOldestN? (h : s.Holds places t) (n : Nat) :
    ∃ s' places', s.removeOldestN? n =
        some ((t.rows.drop (t.rows.length - n)).reverse, s') ∧
      s'.Holds places' (t.dropOldest n) := by
  induction n generalizing s places t with
  | zero =>
      rw [Nat.sub_zero, List.drop_length, Table.dropOldest, Nat.sub_zero, List.take_length]
      exact ⟨s, places, rfl, h⟩
  | succ n ih =>
      obtain ⟨s₁, places₁, holdest, hholds₁⟩ := h.removeOldest?
      rcases List.eq_nil_or_concat t.rows with hrows | ⟨xs, row, hrows⟩
      · rw [hrows] at holdest
        have hsame : t.dropOldest (n + 1) = t.dropLast := by
          rw [Table.dropOldest, Table.dropLast, hrows, List.take_nil, List.dropLast_nil]
        rw [hrows, hsame, List.drop_nil]
        refine ⟨s₁, places₁, ?_, hholds₁⟩
        simp only [Slab.removeOldestN?, holdest, List.getLast?_nil, Option.bind_eq_bind,
          Option.bind_some]
        rfl
      · rw [List.concat_eq_append] at hrows
        have hdropLast : t.dropLast = ⟨xs⟩ := by
          rw [Table.dropLast, hrows, List.dropLast_concat]
        rw [hdropLast] at hholds₁
        obtain ⟨s₂, places₂, hrest, hholds₂⟩ := ih hholds₁
        have hlength : t.rows.length - (n + 1) = xs.length - n := by
          rw [hrows, List.length_append, List.length_singleton]
          omega
        refine ⟨s₂, places₂, ?_, ?_⟩
        · rw [hrows, List.getLast?_concat] at holdest
          simp only [Slab.removeOldestN?, holdest, Option.bind_eq_bind, Option.bind_some, hrest]
          rw [hlength, hrows, List.drop_append_of_le_length (Nat.sub_le _ _),
            List.reverse_append]
          rfl
        · have hsame : t.dropOldest (n + 1) = (⟨xs⟩ : Table κ ν).dropOldest n := by
            rw [Table.dropOldest, Table.dropOldest, hlength, hrows,
              List.take_append_of_le_length (Nat.sub_le _ _)]
          rw [hsame]
          exact hholds₂

/-- Writing a value for a key puts its row first; a new key in a full slab takes the
place of the last row. -/
theorem upsert? (h : s.Holds places t) (capacity : Nat) (k : κ) (v : ν) :
    ∃ s' places', s.upsert? capacity k v = some (t.find? k,
        (if (t.find? k).isNone ∧ capacity ≤ t.size then t.rows.getLast? else none), s') ∧
      s'.Holds places' (t.upsert capacity k v) := by
  have hindex := h.find?_index k
  rw [Slab.upsert?, Table.upsert]
  cases hk : s.index.find? k with
  | some p =>
      rw [hk] at hindex
      obtain ⟨v₀, hp, hv₀⟩ := hindex
      obtain ⟨s', places', hreplace, hholds⟩ := h.replace? hp v
      obtain ⟨node, hnode, -, hvalue⟩ := entryAt?_eq_some hp
      have hnew : ¬((some v₀).isNone = true ∧ capacity ≤ t.size) := by simp
      rw [hv₀, if_neg hnew, if_neg hnew]
      refine ⟨s', places', ?_, hholds⟩
      simp only [hnode, hreplace, hvalue, Option.bind_eq_bind, Option.bind_some]
      rfl
  | none =>
      rw [hk] at hindex
      have hnone := hindex
      rw [hnone]
      by_cases hfull : capacity ≤ t.size
      · obtain ⟨s₁, places₁, holdest, hholds₁⟩ := h.removeOldest?
        have hk₁ : t.dropLast.find? k = none := by
          rw [Table.find?_eq_none_iff, Table.keys] at hnone ⊢
          exact fun hmem => hnone (List.map_subset _ (List.dropLast_subset _) hmem)
        obtain ⟨s₂, places₂, hpush, hholds₂⟩ := hholds₁.push? hk₁ v
        have hevict : (none : Option ν).isNone = true ∧ capacity ≤ t.size := ⟨rfl, hfull⟩
        have hfull' : capacity ≤ s.size := by
          rw [h.size_eq]
          exact hfull
        rw [if_pos hevict, if_pos hevict]
        refine ⟨s₂, places₂, ?_, hholds₂⟩
        simp only [if_pos hfull', holdest, hpush, Option.bind_eq_bind, Option.bind_some]
        rfl
      · obtain ⟨s₁, places₁, hpush, hholds₁⟩ := h.push? hnone v
        have hnew : ¬((none : Option ν).isNone = true ∧ capacity ≤ t.size) :=
          fun hboth => hfull hboth.2
        rw [if_neg hnew, if_neg hnew]
        refine ⟨s₁, places₁, ?_, hholds₁⟩
        simp only [h.size_eq, if_neg hfull, hpush, Option.bind_eq_bind, Option.bind_some]
        rfl

end Holds

end Slab

end StreamStore
