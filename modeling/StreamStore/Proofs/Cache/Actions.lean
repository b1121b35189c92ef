import Mathlib.Data.List.Induction
import Mathlib.Data.Option.Basic
import StreamStore.Proofs.Cache.Contents

/-!
# Caches as association lists

To a caller a cache is an association list, most recently used first, of at most
as many rows as the cache has room for.  The answers of a cache to any sequence of
actions are those of the list.  What stands behind them are three views of the
same entries that agree after every action: the links followed from the newest
entry, the links followed from the oldest one, and the index.
-/

namespace StreamStore

/-- What can be asked of a cache. -/
inductive CacheAction (κ ν : Type) where
  /-- Write a value for a key. -/
  | put (k : κ) (v : ν)
  /-- Look a key up, which uses it. -/
  | lookup (k : κ)
  | peek (k : κ)
  | contains (k : κ)
  /-- Use a key if its value passes a test. -/
  | touchIf (k : κ) (test : ν → Bool)
  | remove (k : κ)
  /-- Evict up to a number of entries. -/
  | dropOldest (n : Nat)

/-- What comes back. -/
inductive CacheAnswer (κ ν : Type) where
  | value (v : Option ν)
  /-- The value before, and the entry that had to go. -/
  | written (previous : Option ν) (evicted : Option (κ × ν))
  | flag (yes : Bool)
  /-- The entries that had to go, in this order. -/
  | evicted (entries : List (κ × ν))

variable {κ ν : Type} [DecidableEq κ]

/-! ## Actions on lists and on caches -/

namespace Table

/-- The answer of an association list with room for `capacity` rows, and the list
after it: a used or written row comes first, and a new row that finds no room pushes
the last one out. -/
def perform (t : Table κ ν) (capacity : Nat) : CacheAction κ ν → CacheAnswer κ ν × Table κ ν
  | .put k v =>
    (.written (t.find? k)
      (if (t.find? k).isNone ∧ capacity ≤ t.size then t.rows.getLast? else none),
      t.upsert capacity k v)
  | .lookup k => (.value (t.find? k), t.promote k)
  | .peek k => (.value (t.find? k), t)
  | .contains k => (.flag (t.contains k), t)
  | .touchIf k test =>
    if (t.find? k).any test then (.flag true, t.promote k) else (.flag false, t)
  | .remove k => (.value (t.find? k), t.erase k)
  | .dropOldest n =>
    (.evicted (t.rows.drop (t.size - min n t.size)).reverse, t.dropOldest (min n t.size))

/-- The answers to several actions in a row, and the list after them. -/
def performAll (t : Table κ ν) (capacity : Nat) :
    List (CacheAction κ ν) → List (CacheAnswer κ ν) × Table κ ν
  | [] => ([], t)
  | action :: actions =>
    let rest := (t.perform capacity action).2.performAll capacity actions
    ((t.perform capacity action).1 :: rest.1, rest.2)

end Table

namespace Cache

def perform (c : Cache κ ν) : CacheAction κ ν → CacheAnswer κ ν × Cache κ ν
  | .put k v => (.written (c.put k v).1 (c.put k v).2.1, (c.put k v).2.2)
  | .lookup k => (.value (c.lookup k).1, (c.lookup k).2)
  | .peek k => (.value (c.peek k), c)
  | .contains k => (.flag (c.contains k), c)
  | .touchIf k test => (.flag (c.touchIf k test).1, (c.touchIf k test).2)
  | .remove k => (.value (c.remove k).1, (c.remove k).2)
  | .dropOldest n => (.evicted (c.dropOldest n).1, (c.dropOldest n).2)

def performAll (c : Cache κ ν) :
    List (CacheAction κ ν) → List (CacheAnswer κ ν) × Cache κ ν
  | [] => ([], c)
  | action :: actions =>
    let rest := (c.perform action).2.performAll actions
    ((c.perform action).1 :: rest.1, rest.2)

theorem capacity_perform (c : Cache κ ν) (action : CacheAction κ ν) :
    (c.perform action).2.capacity = c.capacity := by
  cases action with
  | put k v =>
      simp only [perform, put]
      split
      · rfl
      · rfl
      · rfl
  | lookup k =>
      simp only [perform, lookup]
      split
      · rfl
      · rfl
  | peek k => rfl
  | contains k => rfl
  | touchIf k test =>
      simp only [perform, touchIf]
      split
      · rfl
      · rfl
  | remove k =>
      simp only [perform, remove]
      split
      · rfl
      · rfl
  | dropOldest n =>
      simp only [perform, dropOldest]
      split
      · rfl
      · rfl

/-- What an action does to the slab looks at no place outside its array. -/
def InRange (c : Cache κ ν) : CacheAction κ ν → Prop
  | .put k v => (c.slab.upsert? c.capacity k v).isSome
  | .peek k | .contains k => (c.slab.find? k).isSome
  | .lookup k | .touchIf k _ => (c.slab.find? k).isSome ∧ (c.slab.touch? k).isSome
  | .remove k => (c.slab.remove? k).isSome
  | .dropOldest n => (c.slab.removeOldestN? (min n c.size)).isSome

end Cache

/-! ## Following links -/

namespace Slab

omit [DecidableEq κ]

/-- Links followed from a place lead through some places and end. -/
inductive Visits (nodes : Array (SlabNode κ ν)) (link : SlabNode κ ν → Option Nat) :
    Option Nat → List Nat → Prop
  | done : Visits nodes link none []
  | next {place : Nat} {node : SlabNode κ ν} {places : List Nat}
      (hnode : nodes[place]? = some node) (hrest : Visits nodes link (link node) places) :
      Visits nodes link (some place) (place :: places)

/-- A stretch up to the oldest entry is followed by the links to older entries. -/
theorem Linked.visits_older {nodes : Array (SlabNode κ ν)} {before : Option Nat}
    {places : List Nat} (h : Linked nodes before places none) :
    Visits nodes (·.older) places.head? places := by
  induction places generalizing before with
  | nil => exact .done
  | cons place places ih =>
      obtain ⟨⟨node, hnode, -, holder⟩, hrest⟩ := h
      rw [Option.or_none] at holder
      refine .next hnode ?_
      rw [holder]
      exact ih hrest

/-- A stretch from the newest entry on is followed backwards by the links to newer
entries. -/
theorem Linked.visits_newer {nodes : Array (SlabNode κ ν)} {behind : Option Nat}
    {places : List Nat} (h : Linked nodes none places behind) :
    Visits nodes (·.newer) places.getLast? places.reverse := by
  induction places using List.reverseRecOn generalizing behind with
  | nil => exact .done
  | append_singleton places place ih =>
      obtain ⟨hinit, ⟨node, hnode, hnewer, -⟩, -⟩ := (linked_append ..).mp h
      rw [Option.or_none] at hnewer
      rw [List.getLast?_concat, List.reverse_concat]
      refine .next hnode ?_
      rw [hnewer]
      exact ih hinit

/-- The walk along a slab gives the entries at the places it leads through. -/
theorem Visits.map_walk {s : Slab κ ν} {start : Option Nat} {places : List Nat}
    (h : Visits s.nodes (·.older) start places) {fuel : Nat} (hfuel : places.length ≤ fuel) :
    (s.walk fuel start).map some = places.map s.entryAt? := by
  induction h generalizing fuel with
  | done => cases fuel with
    | zero => rfl
    | succ fuel => rfl
  | @next place node places hnode hrest ih =>
      cases fuel with
      | zero => cases hfuel
      | succ fuel =>
          have hentry : s.entryAt? place = some (node.key, node.value) := by
            rw [entryAt?, hnode]
            rfl
          rw [walk, hnode, List.map_cons, List.map_cons, hentry]
          exact congrArg _ (ih (Nat.le_of_succ_le_succ hfuel))

namespace Holds

variable [DecidableEq κ] {s : Slab κ ν} {places : List Nat} {t : Table κ ν}

theorem perm_range (h : s.Holds places t) : places.Perm (List.range s.nodes.size) := by
  apply (List.perm_ext_iff_of_nodup h.threaded.nodup List.nodup_range).mpr
  intro i
  rw [h.mem_iff, List.mem_range]

theorem visits_older (h : s.Holds places t) :
    Visits s.nodes (·.older) s.newest places := by
  rw [h.threaded.newest_eq]
  exact h.threaded.linked.visits_older

theorem visits_newer (h : s.Holds places t) :
    Visits s.nodes (·.newer) s.oldest places.reverse := by
  rw [h.threaded.oldest_eq]
  exact h.threaded.linked.visits_newer

theorem toList_eq (h : s.Holds places t) : s.toList = t.rows := by
  apply List.map_injective_iff.mpr (Option.some_injective _)
  rw [← h.rows_eq, toList]
  apply h.visits_older.map_walk
  exact Nat.le_of_eq (h.perm_range.length_eq.trans List.length_range)

/-- The index finds each key at the place of its entry, and no other key. -/
theorem find?_index_eq_some_iff (h : s.Holds places t) (k : κ) (i : Nat) :
    s.index.find? k = some i ↔ ∃ node, s.nodes[i]? = some node ∧ node.key = k := by
  rw [h.indexed.find?_iff]
  constructor
  · rintro ⟨v, hentry⟩
    obtain ⟨node, hnode, hkey, -⟩ := entryAt?_eq_some hentry
    exact ⟨node, hnode, hkey⟩
  · rintro ⟨node, hnode, rfl⟩
    refine ⟨node.value, ?_⟩
    rw [entryAt?, hnode]
    rfl

end Holds

end Slab

/-! ## One action -/

namespace Cache.Holds

variable {c : Cache κ ν} {t : Table κ ν}

theorem put_fst (h : c.Holds t) (k : κ) (v : ν) : (c.put k v).1 = t.find? k := by
  obtain ⟨places, hslab⟩ := h.slab
  obtain ⟨s', places', hupsert, -⟩ := hslab.upsert? c.capacity k v
  rw [Cache.put, hupsert]
  cases t.find? k with
  | none => rfl
  | some v₀ => rfl

theorem put_evicted (h : c.Holds t) (k : κ) (v : ν) :
    (c.put k v).2.1 =
      if (t.find? k).isNone ∧ c.capacity ≤ t.size then t.rows.getLast? else none := by
  obtain ⟨places, hslab⟩ := h.slab
  obtain ⟨s', places', hupsert, -⟩ := hslab.upsert? c.capacity k v
  rw [Cache.put, hupsert]
  cases t.find? k with
  | none => rfl
  | some v₀ => rfl

theorem dropOldest_fst (h : c.Holds t) (n : Nat) :
    (c.dropOldest n).1 = (t.rows.drop (t.size - min n t.size)).reverse := by
  obtain ⟨places, hslab⟩ := h.slab
  obtain ⟨s', places', hremove, -⟩ := hslab.removeOldestN? (min n t.size)
  rw [Cache.dropOldest, Cache.size, hslab.size_eq, hremove]
  rfl

/-- A cache answers an action as the list it holds does, and holds the list that
comes out of it. -/
theorem perform (h : c.Holds t) (action : CacheAction κ ν) :
    (c.perform action).1 = (t.perform c.capacity action).1 ∧
      (c.perform action).2.Holds (t.perform c.capacity action).2 := by
  cases action with
  | put k v =>
      refine ⟨?_, h.put k v⟩
      rw [Cache.perform, Table.perform, h.put_fst, h.put_evicted]
  | lookup k =>
      obtain ⟨hanswer, hholds⟩ := h.lookup k
      exact ⟨congrArg _ hanswer, hholds⟩
  | peek k => exact ⟨congrArg _ (h.peek_eq k), h⟩
  | contains k =>
      refine ⟨?_, h⟩
      rw [Cache.perform, Table.perform, Cache.contains, h.peek_eq, Table.contains]
  | touchIf k test =>
      rw [Cache.perform, Table.perform, Cache.touchIf, h.peek_eq]
      by_cases htest : (t.find? k).any test
      · rw [if_pos htest, if_pos htest]
        exact ⟨rfl, h.touch k⟩
      · rw [if_neg htest, if_neg htest]
        exact ⟨rfl, h⟩
  | remove k =>
      obtain ⟨hanswer, hholds⟩ := h.remove k
      exact ⟨congrArg _ hanswer, hholds⟩
  | dropOldest n => exact ⟨congrArg _ (h.dropOldest_fst n), h.dropOldest n⟩

theorem inRange (h : c.Holds t) (action : CacheAction κ ν) : c.InRange action := by
  obtain ⟨places, hslab⟩ := h.slab
  have hfind (k : κ) : (c.slab.find? k).isSome := by
    rw [hslab.find?_eq]
    rfl
  have htouch (k : κ) : (c.slab.touch? k).isSome := by
    obtain ⟨s', places', htouch, -⟩ := hslab.touch? k
    rw [htouch]
    rfl
  cases action with
  | put k v =>
      obtain ⟨s', places', hupsert, -⟩ := hslab.upsert? c.capacity k v
      rw [InRange, hupsert]
      rfl
  | lookup k => exact ⟨hfind k, htouch k⟩
  | peek k => exact hfind k
  | contains k => exact hfind k
  | touchIf k test => exact ⟨hfind k, htouch k⟩
  | remove k =>
      obtain ⟨s', places', hremove, -⟩ := hslab.remove? k
      rw [InRange, hremove]
      rfl
  | dropOldest n =>
      obtain ⟨s', places', hremove, -⟩ := hslab.removeOldestN? (min n c.size)
      rw [InRange, hremove]
      rfl

end Cache.Holds

/-! ## All actions -/

namespace Cache

/-- A cache stands for an association list: the links lead through all places of
its array in the order of the rows, and backwards, and the index finds exactly the
keys there are. -/
structure Represents (c : Cache κ ν) (t : Table κ ν) : Prop where
  proper : t.Proper
  visits : ∃ places : List Nat, places.Perm (List.range c.slab.nodes.size) ∧
    Slab.Visits c.slab.nodes (·.older) c.slab.newest places ∧
    Slab.Visits c.slab.nodes (·.newer) c.slab.oldest places.reverse ∧
    places.map c.slab.entryAt? = t.rows.map some
  find?_index_iff : ∀ k i, c.slab.index.find? k = some i ↔
    ∃ node, c.slab.nodes[i]? = some node ∧ node.key = k
  index_proper : c.slab.index.Proper
  size_eq : c.size = t.size
  entries_eq : c.entries = t.rows
  keys_eq : c.keys = t.keys
  /-- No action that may come next looks outside the array. -/
  inRange : ∀ action, c.InRange action

variable {c : Cache κ ν} {t : Table κ ν}

theorem Holds.represents (h : c.Holds t) : c.Represents t := by
  obtain ⟨places, hslab⟩ := h.slab
  have hentries : c.entries = t.rows := hslab.toList_eq
  constructor
  · exact h.table_proper
  · exact ⟨places, hslab.perm_range, hslab.visits_older, hslab.visits_newer, hslab.rows_eq⟩
  · exact hslab.find?_index_eq_some_iff
  · exact hslab.indexed.proper
  · exact hslab.size_eq
  · exact hentries
  · rw [keys, hentries, Table.keys]
  · exact h.inRange

/-- The answers to any actions are those of the list. -/
theorem Holds.performAll (h : c.Holds t) (actions : List (CacheAction κ ν)) :
    (c.performAll actions).1 = (t.performAll c.capacity actions).1 ∧
      (c.performAll actions).2.Holds (t.performAll c.capacity actions).2 ∧
      (c.performAll actions).2.capacity = c.capacity := by
  induction actions generalizing c t with
  | nil => exact ⟨rfl, h, rfl⟩
  | cons action actions ih =>
      obtain ⟨hanswer, hholds⟩ := h.perform action
      have hcapacity := capacity_perform c action
      obtain ⟨hanswers, hholds', hcapacity'⟩ := ih hholds
      rw [hcapacity] at hanswers hholds' hcapacity'
      refine ⟨?_, hholds', hcapacity'⟩
      rw [Cache.performAll, Table.performAll, hanswer, hanswers]

/-- Whatever is done to an empty cache, it answers as the association list does, stands
for that list, and never has more rows than it has room for. -/
theorem represents_performAll (capacity : Nat) (actions : List (CacheAction κ ν)) :
    let after := (ofCapacity capacity : Cache κ ν).performAll actions
    let list := ({} : Table κ ν).performAll (max capacity 1) actions
    after.1 = list.1 ∧ after.2.Represents list.2 ∧ list.2.size ≤ max capacity 1 := by
  intro after list
  have hempty : (ofCapacity capacity : Cache κ ν).Holds {} := holds_ofCapacity capacity
  obtain ⟨hanswers, hholds, hcapacity⟩ := hempty.performAll actions
  have hsize := hholds.size_le
  rw [hcapacity] at hsize
  exact ⟨hanswers, hholds.represents, hsize⟩

example :
    ((ofCapacity 3 : Cache Nat String).performAll
      [.put 1 "a", .put 2 "b", .put 3 "c", .lookup 1, .remove 3, .put 4 "d", .put 5 "e"]).2.keys =
      [5, 4, 1] := by decide

end Cache

end StreamStore
