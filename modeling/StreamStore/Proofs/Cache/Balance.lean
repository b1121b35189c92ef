import Mathlib.Data.List.TakeDrop
import StreamStore.Proofs.Cache.Pools

/-!
# The accounts of a cache

A cache counts the keys that come in and the entries that have to go, and each way an entry leaves
it shows: what came in and is there no more was evicted or taken out.  Calls are made one after
another, and a fetch is over when the next call is made.  Who listens is told of every evicted entry
and of no other, in the order in which they go.
-/

namespace StreamStore

variable {κ ν ε : Type}

/-! ## Calls -/

/-- A call on a cache. -/
inductive CacheCall (κ ν ε : Type)
  | act (action : CacheAction κ ν)
  /-- Get the value of a key, or else have it found, with what comes of that. -/
  | fetch (k : κ) (found : Except ε ν)

/-- What comes back from a call. -/
inductive CallAnswer (κ ν ε : Type)
  | answered (answer : CacheAnswer κ ν)
  /-- The result of a fetch, if it is over. -/
  | fetched (result : Option (Except ε ν))

/-- The entries that had to go, in this order. -/
def CacheAnswer.gone : CacheAnswer κ ν → List (κ × ν)
  | .written _ row? => row?.toList
  | .evicted rows => rows
  | _ => []

namespace CacheCall

/-- Whether a call looks a key up for its value. -/
def looks : CacheCall κ ν ε → Bool
  | act (.lookup _) => true
  | fetch .. => true
  | _ => false

/-- Whether a call took an entry out because it was told to. -/
def removes : CacheCall κ ν ε → CallAnswer κ ν ε → Bool
  | act (.remove _), .answered (.value v) => v.isSome
  | _, _ => false

end CacheCall

variable [DecidableEq κ]

namespace PoolSystem

/-- Make a call and wait for it to be over. -/
def call (y : PoolSystem κ ν ε) : CacheCall κ ν ε → CallAnswer κ ν ε × PoolSystem κ ν ε
  | .act action =>
    let (answer, cache) := y.pool.cache.perform action
    (.answered answer, y.report cache answer.gone)
  | .fetch k found =>
    let (t, z) := y.start k (.fetch .looking (some found))
    (.fetched ((z.settle.arrivals.drop y.arrivals.length).lookup t).join, z.settle)

/-- The answers to several calls in a row, and the pool after them. -/
def callAll (y : PoolSystem κ ν ε) :
    List (CacheCall κ ν ε) → List (CallAnswer κ ν ε) × PoolSystem κ ν ε
  | [] => ([], y)
  | call :: calls =>
    let rest := (y.call call).2.callAll calls
    ((y.call call).1 :: rest.1, rest.2)

end PoolSystem

namespace Table

/-- What a call answers on an association list, and the list after it. -/
def call (t : Table κ ν) (capacity : Nat) : CacheCall κ ν ε → CallAnswer κ ν ε × Table κ ν
  | .act action => (.answered (t.perform capacity action).1, (t.perform capacity action).2)
  | .fetch k found =>
    match t.find? k, found with
    | some v, _ => (.fetched (some (.ok v)), t.promote k)
    | none, .ok v => (.fetched (some (.ok v)), t.upsert capacity k v)
    | none, .error fault => (.fetched (some (.error fault)), t)

/-- How many rows a call drops, for want of room or because it was told to drop the oldest ones. -/
def excess (t : Table κ ν) (capacity : Nat) : CacheCall κ ν ε → Nat
  | .act (.put k _) | .fetch k (.ok _) =>
    if (t.find? k).isNone ∧ capacity ≤ t.size then 1 else 0
  | .act (.dropOldest n) => min n t.size
  | _ => 0

/-- The rows that a call drops, the oldest first. -/
def dropped (t : Table κ ν) (capacity : Nat) (call : CacheCall κ ν ε) : List (κ × ν) :=
  (t.rows.drop (t.size - t.excess capacity call)).reverse

def callAll (t : Table κ ν) (capacity : Nat) :
    List (CacheCall κ ν ε) → List (CallAnswer κ ν ε) × Table κ ν
  | [] => ([], t)
  | call :: calls =>
    let rest := (t.call capacity call).2.callAll capacity calls
    ((t.call capacity call).1 :: rest.1, rest.2)

def droppedAll (t : Table κ ν) (capacity : Nat) : List (CacheCall κ ν ε) → List (κ × ν)
  | [] => []
  | call :: calls =>
    t.dropped capacity call ++ (t.call capacity call).2.droppedAll capacity calls

variable {t : Table κ ν} {k : κ} {v : ν}

theorem length_dropped {capacity : Nat} (hpos : 0 < capacity) (call : CacheCall κ ν ε) :
    (t.dropped capacity call).length = t.excess capacity call := by
  have hle : t.excess capacity call ≤ t.size := by
    unfold excess
    split
    · split <;> omega
    · split <;> omega
    · exact Nat.min_le_right ..
    · exact Nat.zero_le _
  rw [dropped, List.length_reverse, List.length_drop, ← size]
  omega

theorem dropped_of_excess_eq_zero {capacity : Nat} {call : CacheCall κ ν ε}
    (h : t.excess capacity call = 0) : t.dropped capacity call = [] := by
  rw [dropped, h, Nat.sub_zero, size, List.drop_length, List.reverse_nil]

theorem toList_getLast? {α : Type} (xs : List α) :
    xs.getLast?.toList = (xs.drop (xs.length - 1)).reverse := by
  by_cases hxs : xs = []
  · rw [hxs]
    rfl
  · rw [List.drop_length_sub_one hxs, List.getLast?_eq_some_getLast hxs]
    rfl

/-- The row that a new one pushes out is the one that is dropped. -/
theorem toList_pushed (t : Table κ ν) (capacity : Nat) (k : κ) (v : ν) :
    (if (t.find? k).isNone ∧ capacity ≤ t.size then t.rows.getLast? else none).toList =
      t.dropped capacity (.fetch k (.ok v) : CacheCall κ ν ε) := by
  rw [dropped, excess]
  split
  · rw [toList_getLast?, size]
  · rw [Nat.sub_zero, size, List.drop_length, List.reverse_nil, Option.toList_none]

/-- The entries that an action lets go are the rows that it drops. -/
theorem gone_perform (t : Table κ ν) (capacity : Nat) (action : CacheAction κ ν) :
    (t.perform capacity action).1.gone =
      t.dropped capacity (.act action : CacheCall κ ν ε) := by
  cases action with
  | put k v => exact t.toList_pushed (ε := ε) capacity k v
  | dropOldest n => rfl
  | touchIf k test =>
      rw [dropped_of_excess_eq_zero rfl, perform]
      split <;> rfl
  | _ => exact (dropped_of_excess_eq_zero rfl).symm

/-- A new row comes in, and the one that it pushes out goes. -/
theorem size_upsert (h : t.Proper) {capacity : Nat} (hpos : 0 < capacity) (k : κ) (v : ν) :
    (t.upsert capacity k v).size +
        (if (t.find? k).isNone ∧ capacity ≤ t.size then 1 else 0) =
      t.size + (if (t.find? k).isNone then 1 else 0) := by
  rw [upsert]
  cases hk : t.find? k with
  | some v₀ =>
      have hsize := h.size_erase hk
      simpa [size_insert] using hsize
  | none =>
      by_cases hfull : capacity ≤ t.size
      · have habsent : t.dropLast.find? k = none := find?_eq_none_iff.mpr fun hmem =>
          find?_eq_none_iff.mp hk (List.map_subset _ (List.dropLast_subset _) hmem)
        have hdrop : t.dropLast.size = t.size - 1 := List.length_dropLast
        simp [size_insert, erase_of_find?_eq_none habsent, hfull]
        omega
      · simp [size_insert, erase_of_find?_eq_none hk, hfull]

end Table

namespace Cache

/-! ## Accounts -/

/-- What becomes of a cache and of the list that it holds, where `dropped` rows have to go,
`removed` are taken out, and `looked` lookups are counted. -/
structure Accounts (c c' : Cache κ ν) (t t' : Table κ ν) (dropped removed looked : Nat) : Prop where
  holds : c'.Holds t'
  capacity_eq : c'.capacity = c.capacity
  insertions_eq : c'.insertions + t.size = c.insertions + t'.size + dropped + removed
  evictions_eq : c'.evictions = c.evictions + dropped
  lookups_eq : c'.hits + c'.misses = c.hits + c.misses + looked

variable {c c' c'' : Cache κ ν} {t t' t'' : Table κ ν} {dropped removed looked : Nat}

theorem Accounts.trans {dropped' removed' looked' : Nat}
    (h : Accounts c c' t t' dropped removed looked)
    (h' : Accounts c' c'' t' t'' dropped' removed' looked') :
    Accounts c c'' t t'' (dropped + dropped') (removed + removed') (looked + looked') where
  holds := h'.holds
  capacity_eq := h'.capacity_eq.trans h.capacity_eq
  insertions_eq := by
    have hfirst := h.insertions_eq
    have hsecond := h'.insertions_eq
    omega
  evictions_eq := by rw [h'.evictions_eq, h.evictions_eq, Nat.add_assoc]
  lookups_eq := by rw [h'.lookups_eq, h.lookups_eq, Nat.add_assoc]

namespace Holds

theorem accounts_refl (h : c.Holds t) : Accounts c c t t 0 0 0 :=
  ⟨h, rfl, rfl, rfl, rfl⟩

/-- Using a key without looking it up counts nothing. -/
theorem accounts_touch (h : c.Holds t) (k : κ) :
    Accounts c (c.touch k) t (t.promote k) 0 0 0 := by
  refine ⟨h.touch k, rfl, ?_, rfl, rfl⟩
  rw [h.size_promote k]
  rfl

/-- A lookup counts itself and nothing else. -/
theorem accounts_lookup (h : c.Holds t) (k : κ) :
    Accounts c (c.lookup k).2 t (t.promote k) 0 0 1 := by
  have hsize := h.size_promote k
  have hholds := (h.lookup k).2
  rw [Cache.lookup] at hholds ⊢
  cases hpeek : c.peek k with
  | some v =>
      rw [hpeek] at hholds
      refine ⟨hholds, rfl, ?_, rfl, Nat.add_right_comm c.hits 1 c.misses⟩
      rw [hsize]
      rfl
  | none =>
      rw [hpeek] at hholds
      refine ⟨hholds, rfl, ?_, rfl, rfl⟩
      rw [hsize]
      rfl

/-- A new key counts as coming in, and the entry that it pushes out as evicted. -/
theorem accounts_put (h : c.Holds t) (k : κ) (v : ν) :
    Accounts c (c.put k v).2.2 t (t.upsert c.capacity k v)
      (if (t.find? k).isNone ∧ c.capacity ≤ t.size then 1 else 0) 0 0 := by
  have hsize := Table.size_upsert h.table_proper h.capacity_pos k v
  have hholds := h.put k v
  obtain ⟨places, hslab⟩ := h.slab
  obtain ⟨s', places', hupsert, -⟩ := hslab.upsert? c.capacity k v
  rw [Cache.put, hupsert] at hholds ⊢
  cases hk : t.find? k with
  | some v₀ =>
      rw [hk] at hholds hsize
      refine ⟨hholds, rfl, ?_, rfl, rfl⟩
      simpa using hsize.symm
  | none =>
      rw [hk] at hholds hsize
      refine ⟨hholds, rfl, ?_, ?_, rfl⟩
      · simp only [Option.isNone_none, if_true] at hsize ⊢
        omega
      · by_cases hfull : c.capacity ≤ t.size
        · have hrows : t.rows ≠ [] := List.ne_nil_of_length_pos
            (Nat.lt_of_lt_of_le h.capacity_pos hfull)
          simp [hfull, List.getLast?_eq_some_getLast hrows]
        · simp [hfull]

/-- An entry that is taken out counts neither as evicted nor as coming in. -/
theorem accounts_remove (h : c.Holds t) (k : κ) :
    Accounts c (c.remove k).2 t (t.erase k) 0 (if (t.find? k).isSome then 1 else 0) 0 := by
  have hholds := (h.remove k).2
  obtain ⟨places, hslab⟩ := h.slab
  obtain ⟨s', places', hremove, -⟩ := hslab.remove? k
  rw [Cache.remove, hremove] at hholds ⊢
  refine ⟨hholds, rfl, ?_, rfl, rfl⟩
  cases hk : t.find? k with
  | some v =>
      have hsize := h.table_proper.size_erase hk
      simp only [Option.isSome_some, if_true]
      omega
  | none =>
      rw [Table.erase_of_find?_eq_none hk]
      rfl

/-- The oldest entries count as evicted. -/
theorem accounts_dropOldest (h : c.Holds t) (n : Nat) :
    Accounts c (c.dropOldest n).2 t (t.dropOldest (min n t.size)) (min n t.size) 0 0 := by
  have hholds := h.dropOldest n
  obtain ⟨places, hslab⟩ := h.slab
  obtain ⟨s', places', hremove, -⟩ := hslab.removeOldestN? (min n t.size)
  have hsize : (t.dropOldest (min n t.size)).size = t.size - min n t.size :=
    List.length_take_of_le (Nat.sub_le ..)
  rw [Cache.dropOldest, Cache.size, hslab.size_eq, hremove] at hholds ⊢
  refine ⟨hholds, rfl, ?_, ?_, rfl⟩
  · change c.insertions + t.size = _
    rw [hsize]
    omega
  · change c.evictions + List.length _ = _
    rw [List.length_reverse, List.length_drop, ← Table.size]
    omega

theorem accounts_perform (h : c.Holds t) (action : CacheAction κ ν) :
    Accounts c (c.perform action).2 t (t.perform c.capacity action).2
      (t.excess c.capacity (.act action : CacheCall κ ν ε))
      (if (CacheCall.act action : CacheCall κ ν ε).removes
        (.answered (t.perform c.capacity action).1) then 1 else 0)
      (if (CacheCall.act action : CacheCall κ ν ε).looks then 1 else 0) := by
  cases action with
  | put k v => exact h.accounts_put k v
  | lookup k => exact h.accounts_lookup k
  | peek k => exact h.accounts_refl
  | contains k => exact h.accounts_refl
  | touchIf k test =>
      rw [Cache.perform, Table.perform, Cache.touchIf, h.peek_eq]
      split
      · exact h.accounts_touch k
      · exact h.accounts_refl
  | remove k => exact h.accounts_remove k
  | dropOldest n => exact h.accounts_dropOldest n

end Holds

end Cache

/-! ## A fetch alone -/

namespace PoolWork

/-- A task that goes on as far as it can comes to its end. -/
def RunsOut (p : Pool κ ν Nat) (k : κ) (id : Nat) (work : PoolWork ν ε)
    (noted : List (PoolNotice κ ν ε)) (p' : Pool κ ν Nat) : Prop :=
  work.run p k id = (noted, p', none)

variable {p p' p'' : Pool κ ν Nat} {k : κ} {id : Nat} {work work' : PoolWork ν ε}
  {noted more : List (PoolNotice κ ν ε)}

theorem RunsOut.of_steps (h : Steps p k id work noted p' (some work'))
    (h' : RunsOut p' k id work' more p'') : RunsOut p k id work (noted ++ more) p'' := by
  have hstep := h.step_eq
  rw [RunsOut, run]
  split
  next hwaits => cases hwaits.symm.trans hstep
  next hlast => cases hlast.symm.trans hstep
  next hnext =>
    cases hnext.symm.trans hstep
    rw [h']

theorem RunsOut.of_last (h : Steps p k id work noted p' none) :
    RunsOut p k id work noted p' := by
  have hstep := h.step_eq
  rw [RunsOut, run]
  split
  next hwaits => cases hwaits.symm.trans hstep
  next hlast =>
    cases hlast.symm.trans hstep
    rfl
  next hnext => cases hnext.symm.trans hstep

theorem runsOut_found (p : Pool κ ν Nat) (k : κ) (id : Nat) (v : ν) :
    RunsOut p k id (fetch .finding (some (.ok v) : Option (Except ε ν)))
      (((p.cache.put k v).2.1.toList.map fun row => .evicted row.1 row.2) ++
        [.finished id (.ok v)])
      { cache := (p.cache.put k v).2.2, lines := p.lines.leave k id } :=
  .of_steps .found (.of_steps .leave (.of_last .finish))

theorem runsOut_fail (p : Pool κ ν Nat) (k : κ) (id : Nat) (fault : ε) :
    RunsOut p k id (fetch .finding (some (.error fault) : Option (Except ε ν)))
      [.finished id (.error fault)] { p with lines := p.lines.leave k id } :=
  .of_steps .fail (.of_steps .leave (.of_last .finish))

/-- What a fetch does that nobody is in the way of: it looks the key up and, where the key is
absent, gets in line, comes up at once and writes what it finds. -/
structure FetchesAlone (p p' : Pool κ ν Nat) (t t' : Table κ ν) (k : κ) (id : Nat)
    (found result : Except ε ν) (dropped : List (κ × ν)) : Prop where
  accounts : p.cache.Accounts p'.cache t t' dropped.length 0 1
  line_eq : ∀ k', p'.lines.line k' = p.lines.line k'
  runsOut : ∃ noted : List (PoolNotice κ ν ε), (noted = [] ∨ noted = [.finding id]) ∧
    RunsOut p k id (fetch .looking (some found))
      (noted ++ (dropped.map fun row => .evicted row.1 row.2) ++ [.finished id result]) p'

end PoolWork

namespace Cache.Holds

variable {p : Pool κ ν Nat} {t : Table κ ν} {k : κ}

open PoolWork

theorem fetch_held (h : p.cache.Holds t) {v : ν} (hheld : t.find? k = some v) (id : Nat)
    (found : Except ε ν) :
    FetchesAlone p { p with cache := (p.cache.lookup k).2 } t (t.promote k) k id found (.ok v)
      [] where
  accounts := h.accounts_lookup k
  line_eq _ := rfl
  runsOut := ⟨[], Or.inl rfl, .of_steps (.hit ((h.peek_eq k).trans hheld)) (.of_last .finish)⟩

/-- A fetch that finds the key absent and nobody in line comes to the front. -/
theorem fetch_absent (h : p.cache.Holds t) (habsent : t.find? k = none)
    (hfree : p.lines.line k = []) (id : Nat) {found : Except ε ν} {noted : List (PoolNotice κ ν ε)}
    {p' : Pool κ ν Nat}
    (hrest : RunsOut
      { cache := ((p.cache.lookup k).2.recheck k).2, lines := p.lines.join k id } k id
      (fetch .finding (some found)) noted p') :
    RunsOut p k id (fetch .looking (some found)) ([.finding id] ++ noted) p' := by
  have hpromote : t.promote k = t := by rw [Table.promote, habsent]
  have hlooked := (h.lookup k).2
  have hturn : (p.lines.join k id).holds k id = true := by
    rw [LockTable.holds, LockTable.line_join, if_pos rfl, hfree]
    exact decide_eq_true rfl
  rw [hpromote] at hlooked
  have hfront : Steps { cache := (p.cache.lookup k).2, lines := p.lines.join k id } k id
      (fetch .inLine (some found)) [.finding id] _ _ :=
    .turnMiss hturn ((hlooked.peek_eq k).trans habsent)
  have hrun := RunsOut.of_steps (.miss ((h.peek_eq k).trans habsent))
    (.of_steps .join (.of_steps hfront hrest))
  exact hrun

/-- Looking an absent key up twice leaves the cache as it was but for the lookup that counts. -/
theorem accounts_absent (h : p.cache.Holds t) (habsent : t.find? k = none) :
    Cache.Accounts p.cache ((p.cache.lookup k).2.recheck k).2 t t 0 0 1 := by
  have hpromote : t.promote k = t := by rw [Table.promote, habsent]
  have hlooked := h.accounts_lookup k
  rw [hpromote] at hlooked
  have htouched := hlooked.holds.accounts_touch k
  rw [hpromote] at htouched
  exact hlooked.trans htouched

theorem fetch_found (h : p.cache.Holds t) (habsent : t.find? k = none)
    (hfree : p.lines.line k = []) (id : Nat) (v : ν) :
    ∃ p', FetchesAlone p p' t (t.upsert p.cache.capacity k v) k id (.ok v : Except ε ν) (.ok v)
      (t.dropped p.cache.capacity (.fetch k (.ok v) : CacheCall κ ν ε)) := by
  have hlooked := h.accounts_absent habsent
  have hput := hlooked.trans (hlooked.holds.accounts_put k v)
  rw [hlooked.capacity_eq, Nat.zero_add] at hput
  have hevicted := congrArg Option.toList (hlooked.holds.put_evicted k v)
  rw [hlooked.capacity_eq, t.toList_pushed (ε := ε) _ k v] at hevicted
  have hrun := h.fetch_absent habsent hfree id (runsOut_found (ε := ε) _ k id v)
  rw [hevicted, ← List.append_assoc] at hrun
  refine ⟨_, ?_, fun k' => LockTable.line_leave_join hfree k' id,
    [.finding id], Or.inr rfl, hrun⟩
  rw [Table.length_dropped h.capacity_pos]
  exact hput

theorem fetch_failed (h : p.cache.Holds t) (habsent : t.find? k = none)
    (hfree : p.lines.line k = []) (id : Nat) (fault : ε) :
    ∃ p', FetchesAlone p p' t t k id (.error fault) (.error fault) [] :=
  ⟨_, h.accounts_absent habsent, fun k' => LockTable.line_leave_join hfree k' id,
    [.finding id], Or.inr rfl,
    h.fetch_absent habsent hfree id (runsOut_fail _ k id fault)⟩

end Cache.Holds

namespace PoolSystem

variable {y z : PoolSystem κ ν ε}

/-- A task that is alone comes to its end. -/
theorem settle_start {k : κ} {work : PoolWork ν ε} {noted : List (PoolNotice κ ν ε)}
    {p : Pool κ ν Nat} (hquiet : y.tasks = [])
    (h : PoolWork.RunsOut y.pool k y.nextTask work noted p) :
    (y.start k work).2.settle =
      { y with pool := p, nextTask := y.nextTask + 1, notices := y.notices ++ noted } := by
  rw [PoolWork.RunsOut] at h
  simp only [start, settle, hquiet, List.nil_append, List.length_singleton, settleIn, round,
    List.foldl_cons, List.foldl_nil, h, Option.toList_none, List.map_nil]

/-- Nothing goes on in a pool. -/
structure Quiet (y : PoolSystem κ ν ε) : Prop where
  tasks_eq : y.tasks = []
  line_eq : ∀ k, y.pool.lines.line k = []

/-- What becomes of a pool and of the list that its cache holds, where these rows have to go,
`removed` are taken out, and `looked` lookups are counted. -/
structure Advances (y z : PoolSystem κ ν ε) (t t' : Table κ ν) (dropped : List (κ × ν))
    (removed looked : Nat) : Prop where
  quiet : z.Quiet
  accounts : y.pool.cache.Accounts z.pool.cache t t' dropped.length removed looked
  evicted_eq : z.evicted = y.evicted ++ dropped

theorem Advances.trans {x : PoolSystem κ ν ε} {t t' t'' : Table κ ν} {dropped more : List (κ × ν)}
    {removed removed' looked looked' : Nat} (h : y.Advances z t t' dropped removed looked)
    (h' : z.Advances x t' t'' more removed' looked') :
    y.Advances x t t'' (dropped ++ more) (removed + removed') (looked + looked') where
  quiet := h'.quiet
  accounts := by
    rw [List.length_append]
    exact h.accounts.trans h'.accounts
  evicted_eq := by rw [h'.evicted_eq, h.evicted_eq, List.append_assoc]

omit [DecidableEq κ] in
/-- Everything noted for entries that have to go is heard of as such. -/
theorem evicted_report (y : PoolSystem κ ν ε) (cache : Cache κ ν) (gone : List (κ × ν)) :
    (y.report cache gone).evicted = y.evicted ++ gone := by
  rw [evicted, report, List.filterMap_append, List.filterMap_map]
  exact congrArg (y.evicted ++ ·) List.filterMap_some

theorem call_act (hquiet : y.Quiet) {t : Table κ ν} (h : y.pool.cache.Holds t)
    (action : CacheAction κ ν) :
    let call : CacheCall κ ν ε := .act action
    (y.call call).1 = (t.call y.pool.cache.capacity call).1 ∧
      y.Advances (y.call call).2 t (t.call y.pool.cache.capacity call).2
        (t.dropped y.pool.cache.capacity call)
        (if call.removes (t.call y.pool.cache.capacity call).1 then 1 else 0)
        (if call.looks then 1 else 0) := by
  intro call
  obtain ⟨hanswer, -⟩ := h.perform action
  refine ⟨congrArg CallAnswer.answered hanswer, ⟨hquiet.tasks_eq, hquiet.line_eq⟩, ?_, ?_⟩
  · rw [Table.length_dropped h.capacity_pos]
    exact h.accounts_perform action
  · have hgone := Table.gone_perform (ε := ε) t y.pool.cache.capacity action
    rw [← hgone, ← hanswer]
    exact evicted_report y _ _

omit [DecidableEq κ] in
/-- What a fetch notes besides entries that have to go is when it begins and ends. -/
theorem noted_of_fetch (y : PoolSystem κ ν ε) (p : Pool κ ν Nat) (next : Nat)
    {noted : List (PoolNotice κ ν ε)} {id : Nat} (hnoted : noted = [] ∨ noted = [.finding id])
    (dropped : List (κ × ν)) (result : Except ε ν) :
    let z : PoolSystem κ ν ε := { y with
      pool := p
      nextTask := next
      notices := y.notices ++
        (noted ++ (dropped.map fun row => .evicted row.1 row.2) ++ [.finished id result]) }
    z.evicted = y.evicted ++ dropped ∧ z.arrivals = y.arrivals ++ [(id, some result)] := by
  obtain rfl | rfl := hnoted
  · simp [evicted, arrivals, List.filterMap_map]
  · simp [evicted, arrivals, List.filterMap_map]

theorem call_of_fetchesAlone (hquiet : y.Quiet) {t t' : Table κ ν} {k : κ}
    {found result : Except ε ν} {dropped : List (κ × ν)} {p : Pool κ ν Nat}
    (h : PoolWork.FetchesAlone y.pool p t t' k y.nextTask found result dropped) :
    (y.call (.fetch k found)).1 = .fetched (some result) ∧
      y.Advances (y.call (.fetch k found)).2 t t' dropped 0 1 := by
  obtain ⟨noted, hnoted, hrun⟩ := h.runsOut
  obtain ⟨hevicted, harrivals⟩ := noted_of_fetch y p (y.nextTask + 1) hnoted dropped result
  have hcall : y.call (.fetch k found) = (.fetched
      (((y.start k (.fetch .looking (some found))).2.settle.arrivals.drop
        y.arrivals.length).lookup y.nextTask).join,
      (y.start k (.fetch .looking (some found))).2.settle) := rfl
  rw [hcall, settle_start hquiet.tasks_eq hrun]
  constructor
  · rw [harrivals, List.drop_left, List.lookup_cons_self]
    rfl
  · refine ⟨⟨hquiet.tasks_eq, fun k' => ?_⟩, h.accounts, hevicted⟩
    rw [h.line_eq, hquiet.line_eq]

theorem call_fetch (hquiet : y.Quiet) {t : Table κ ν} (h : y.pool.cache.Holds t) (k : κ)
    (found : Except ε ν) :
    let call : CacheCall κ ν ε := .fetch k found
    (y.call call).1 = (t.call y.pool.cache.capacity call).1 ∧
      y.Advances (y.call call).2 t (t.call y.pool.cache.capacity call).2
        (t.dropped y.pool.cache.capacity call) 0 1 := by
  intro call
  cases hk : t.find? k with
  | some v =>
      have hnone : t.dropped y.pool.cache.capacity call = [] := by
        apply Table.dropped_of_excess_eq_zero
        cases found <;> simp [call, Table.excess, hk]
      have hcall : t.call y.pool.cache.capacity call = (.fetched (some (.ok v)), t.promote k) := by
        simp only [call, Table.call, hk]
      rw [hcall, hnone]
      exact call_of_fetchesAlone hquiet (h.fetch_held hk y.nextTask found)
  | none =>
      have hfree := hquiet.line_eq k
      cases found with
      | ok v =>
          have hcall : t.call y.pool.cache.capacity call =
              (.fetched (some (.ok v)), t.upsert y.pool.cache.capacity k v) := by
            simp only [call, Table.call, hk]
          obtain ⟨p, hfetch⟩ := h.fetch_found (ε := ε) hk hfree y.nextTask v
          rw [hcall]
          exact call_of_fetchesAlone hquiet hfetch
      | error fault =>
          have hcall : t.call y.pool.cache.capacity call = (.fetched (some (.error fault)), t) := by
            simp only [call, Table.call, hk]
          obtain ⟨p, hfetch⟩ := h.fetch_failed hk hfree y.nextTask fault
          rw [hcall, Table.dropped_of_excess_eq_zero rfl]
          exact call_of_fetchesAlone hquiet hfetch

/-! ## Balances -/

theorem call_advances (hquiet : y.Quiet) {t : Table κ ν} (h : y.pool.cache.Holds t)
    (call : CacheCall κ ν ε) :
    (y.call call).1 = (t.call y.pool.cache.capacity call).1 ∧
      y.Advances (y.call call).2 t (t.call y.pool.cache.capacity call).2
        (t.dropped y.pool.cache.capacity call)
        (if call.removes (t.call y.pool.cache.capacity call).1 then 1 else 0)
        (if call.looks then 1 else 0) := by
  cases call with
  | act action => exact call_act hquiet h action
  | fetch k found => exact call_fetch hquiet h k found

/-- One call after another, a pool answers as the list does and advances with it. -/
theorem callAll_advances (hquiet : y.Quiet) {t : Table κ ν} (h : y.pool.cache.Holds t)
    (calls : List (CacheCall κ ν ε)) :
    (y.callAll calls).1 = (t.callAll y.pool.cache.capacity calls).1 ∧
      y.Advances (y.callAll calls).2 t (t.callAll y.pool.cache.capacity calls).2
        (t.droppedAll y.pool.cache.capacity calls)
        ((calls.zip (y.callAll calls).1).countP fun row => row.1.removes row.2)
        (calls.countP (·.looks)) := by
  induction calls generalizing y t with
  | nil => exact ⟨rfl, hquiet, h.accounts_refl, (List.append_nil _).symm⟩
  | cons call calls ih =>
      obtain ⟨hanswer, hadvances⟩ := call_advances hquiet h call
      obtain ⟨hanswers, hrest⟩ := ih hadvances.quiet hadvances.accounts.holds
      rw [hadvances.accounts.capacity_eq] at hanswers hrest
      constructor
      · rw [callAll, Table.callAll, hanswer, hanswers]
      · rw [callAll, Table.callAll, Table.droppedAll, List.zip_cons_cons, List.countP_cons,
          List.countP_cons, hanswer, Nat.add_comm (List.countP _ _), Nat.add_comm (List.countP _ _)]
        exact hadvances.trans hrest

/-- The accounts of a cache after some calls, with what they answered.  What came in is there,
was evicted, or was taken out; every lookup found its key or missed it; and who listens heard of
each evicted entry once, in the order in which they went. -/
structure Balances (capacity : Nat) (calls : List (CacheCall κ ν ε))
    (answers : List (CallAnswer κ ν ε)) (y : PoolSystem κ ν ε) : Prop where
  insertions_eq : y.pool.cache.insertions = y.pool.cache.size + y.pool.cache.evictions +
    (calls.zip answers).countP fun row => row.1.removes row.2
  lookups_eq : y.pool.cache.hits + y.pool.cache.misses = calls.countP (·.looks)
  evictions_eq : y.pool.cache.evictions = y.evicted.length
  /-- Just the rows that calls drop are heard of, as they are when they go. -/
  evicted_eq : y.evicted = ({} : Table κ ν).droppedAll capacity calls
  answers_eq : answers = (({} : Table κ ν).callAll capacity calls).1
  entries_eq : y.pool.cache.entries = (({} : Table κ ν).callAll capacity calls).2.rows
  /-- Every fetch is over. -/
  tasks_eq : y.tasks = []

/-- Whatever is asked of an empty cache, its accounts balance. -/
theorem balances_callAll (capacity : Nat) (calls : List (CacheCall κ ν ε)) :
    let after := (opening capacity [] : PoolSystem κ ν ε).callAll calls
    Balances (max capacity 1) calls after.1 after.2 := by
  intro after
  have hholds : (opening capacity [] : PoolSystem κ ν ε).pool.cache.Holds {} :=
    Cache.holds_ofCapacity capacity
  have hquiet : (opening capacity [] : PoolSystem κ ν ε).Quiet := ⟨rfl, fun _ => rfl⟩
  obtain ⟨hanswers, hadvances⟩ := callAll_advances hquiet hholds calls
  have hrepresents := hadvances.accounts.holds.represents
  have hevicted : after.2.evicted = ({} : Table κ ν).droppedAll (max capacity 1) calls :=
    hadvances.evicted_eq
  have hevictions : after.2.pool.cache.evictions = after.2.evicted.length := by
    rw [hevicted, hadvances.accounts.evictions_eq]
    exact Nat.zero_add _
  have hinsertions : after.2.pool.cache.insertions + 0 = 0 + _ + _ + _ :=
    hadvances.accounts.insertions_eq
  refine ⟨?_, ?_, hevictions, hevicted, hanswers, hrepresents.entries_eq,
    hadvances.quiet.tasks_eq⟩
  · rw [hevictions, hevicted, hrepresents.size_eq]
    rw [Nat.add_zero, Nat.zero_add] at hinsertions
    exact hinsertions
  · rw [hadvances.accounts.lookups_eq]
    exact Nat.zero_add _

/-- A value that is replaced and one that is removed are not heard of. -/
example :
    ({} : Table Nat String).droppedAll 2 ([.act (.put 1 "a"), .act (.put 1 "b"), .act (.put 2 "c"),
      .fetch 3 (.ok "d"), .act (.remove 2), .fetch 4 (.ok "e"), .act (.dropOldest 5)] :
        List (CacheCall Nat String Unit)) = [(1, "b"), (3, "d"), (4, "e")] := by decide

end PoolSystem

end StreamStore
