import Mathlib.Data.List.Nodup
import StreamStore.Proofs.Cache.Pools
import StreamStore.Proofs.Sync.Lines

/-!
# Order in a pool

A pool is in order when just those stand in the line of a key who are there by what they do, when
only the first one finds a value or holds the line, and when no key is resident whose value is
being found.  A step of a task does at most one thing to the line of its key, and brings a value
into the cache only where it found one; so every move keeps a pool in order.
-/

namespace StreamStore

variable {κ ν ε : Type}

/-! ## Lines -/

/-- What a step of a task does to the line of its key. -/
inductive LineStep [DecidableEq κ] (l : LockTable κ Nat) (k : κ) (t : Nat) :
    LinePlace → LockTable κ Nat → LinePlace → Prop
  | stay {place : LinePlace} : LineStep l k t place l place
  | join : LineStep l k t .outside (l.join k t) .waiting
  | turn (hturn : l.holds k t = true) : LineStep l k t .waiting l .leading
  | leave : LineStep l k t .leading (l.leave k t) .outside

/-- The place of a task in the line of a key, from what it does with which key. -/
def LinePlace.of [DecidableEq κ] (k : κ) : Option (κ × PoolWork ν ε) → LinePlace
  | some (k', work) => if k' = k then work.place else .outside
  | none => .outside

section Steps

variable [DecidableEq κ] {p p' : Pool κ ν Nat} {k k' : κ} {t : Nat} {work : PoolWork ν ε}
  {noted : List (PoolNotice κ ν ε)} {left : Option (PoolWork ν ε)}

theorem LinePlace.of_map_self (k : κ) (left : Option (PoolWork ν ε)) :
    of k (left.map fun work => (k, work)) = (left.map PoolWork.place).getD .outside := by
  cases left with
  | none => rfl
  | some work => exact if_pos rfl

theorem LinePlace.of_map_of_ne (hne : k ≠ k') (left : Option (PoolWork ν ε)) :
    of k' (left.map fun work => (k, work)) = .outside := by
  cases left with
  | none => rfl
  | some work => exact if_neg hne

theorem PoolWork.Steps.lineStep (h : work.Steps p k t noted p' left) :
    LineStep p.lines k t work.place p'.lines ((left.map place).getD .outside) := by
  cases h with
  | join | joinHold => exact .join
  | turnHit hturn | turnMiss hturn | turnHold hturn => exact .turn hturn
  | leave => exact .leave
  | _ => exact .stay

/-- The lines of other keys stay. -/
theorem LineStep.line_of_ne {l l' : LockTable κ Nat} {place place' : LinePlace}
    (h : LineStep l k t place l' place') (hne : k' ≠ k) : l'.line k' = l.line k' := by
  cases h with
  | stay | turn => rfl
  | join => rw [LockTable.line_join, if_neg hne]
  | leave => rw [LockTable.line_leave, if_neg hne]

theorem LineStep.lined {l l' : LockTable κ Nat} {place : Nat → LinePlace} {place' : LinePlace}
    (h : LineStep l k t (place t) l' place') (hlined : Lined (l.line k) place) :
    Lined (l'.line k) (Function.update place t place') := by
  generalize hplace : place t = before at h
  cases h with
  | stay =>
      rw [← hplace, Function.update_eq_self]
      exact hlined
  | join =>
      rw [LockTable.line_join, if_pos rfl]
      exact hlined.join hplace
  | turn hturn => exact hlined.turn hplace (of_decide_eq_true hturn)
  | leave =>
      rw [LockTable.line_leave, if_pos rfl]
      exact hlined.leave t

/-! ## Caches -/

/-- Only writing brings a row in. -/
theorem Table.within_perform {table : Table κ ν} (h : table.Proper) (capacity : Nat)
    {action : CacheAction κ ν} (hwrites : action.writes = false) :
    (table.perform capacity action).2.Within table := by
  intro k v hfind
  cases action with
  | put k' v' => cases hwrites
  | lookup k' =>
      rw [← table.find?_promote k' k]
      exact hfind
  | peek k' | contains k' => exact hfind
  | touchIf k' test =>
      rw [perform] at hfind
      split at hfind
      · rw [← table.find?_promote k' k]
        exact hfind
      · exact hfind
  | remove k' =>
      have herase : (table.erase k').find? k = some v := hfind
      rw [find?_erase] at herase
      split at herase
      · cases herase
      · exact herase
  | dropOldest n => exact within_of_subset h (List.take_subset _ _) k v hfind

/-- A step brings no value into the cache but the one that was found for the key. -/
theorem PoolWork.Steps.holds (h : work.Steps p k t noted p' left) {table : Table κ ν}
    (hholds : p.cache.Holds table) :
    ∃ table', p'.cache.Holds table' ∧ ∀ k' v, table'.find? k' = some v →
      table.find? k' = some v ∨ k' = k ∧ ∃ find?, work = fetch .finding find? ∧
        left = some (fetch (.leaving (.ok v)) find?) := by
  have hpromote : ∀ k' v, (table.promote k).find? k' = some v → table.find? k' = some v := by
    intro k' v hfind
    rwa [table.find?_promote] at hfind
  cases h with
  | hit hheld => exact ⟨_, (hholds.lookup k).2, fun k' v hfind => .inl (hpromote k' v hfind)⟩
  | miss habsent => exact ⟨_, (hholds.lookup k).2, fun k' v hfind => .inl (hpromote k' v hfind)⟩
  | turnHit hturn hheld =>
      exact ⟨_, (hholds.recheck k).2, fun k' v hfind => .inl (hpromote k' v hfind)⟩
  | turnMiss hturn habsent =>
      exact ⟨_, (hholds.recheck k).2, fun k' v hfind => .inl (hpromote k' v hfind)⟩
  | @found v =>
      refine ⟨_, hholds.put k v, fun k' v' hfind => ?_⟩
      by_cases hk : k' = k
      · subst hk
        rw [Table.find?_upsert_self] at hfind
        cases hfind
        exact .inr ⟨rfl, _, rfl, rfl⟩
      · exact .inl (Table.find?_upsert_of_ne hholds.table_proper hk hfind)
  | _ => exact ⟨table, hholds, fun _ _ hfind => .inl hfind⟩

end Steps

namespace PoolSystem

variable [DecidableEq κ] {y z : PoolSystem κ ν ε} {mv : PoolMove κ ν ε} {k : κ} {t u : Nat}

theorem Moved.holds (h : y.Moved z mv) {table : Table κ ν} (hholds : y.pool.cache.Holds table) :
    ∃ table', z.pool.cache.Holds table' ∧ ∀ k v, table'.find? k = some v →
      table.find? k = some v ∨
        ∃ t, y.InPhase k .finding t ∧ z.InPhase k (.leaving (.ok v)) t := by
  cases h with
  | @step t k work noted left hwork hsteps hstage hnotices hnext =>
      obtain ⟨table', hholds', hfrom⟩ := hsteps.holds hholds
      refine ⟨table', hholds', fun k' v hfind => ?_⟩
      rcases hfrom k' v hfind with hbefore | ⟨rfl, find?, rfl, hleft⟩
      · exact .inl hbefore
      · refine .inr ⟨t, ⟨find?, hwork⟩, find?, ?_⟩
        rw [hstage, Function.update_self, hleft]
        rfl
  | start hstart hstage hpool hnotices hnext =>
      exact ⟨table, hpool ▸ hholds, fun _ _ hfind => .inl hfind⟩
  | resolve hstage hpool hnotices hnext =>
      exact ⟨table, hpool ▸ hholds, fun _ _ hfind => .inl hfind⟩
  | abandon hstage hpool hnotices hnext =>
      exact ⟨table, hpool ▸ hholds, fun _ _ hfind => .inl hfind⟩
  | @act action hwrites hstage hpool hnotices hnext =>
      have hholds' : z.pool.cache.Holds (table.perform y.pool.cache.capacity action).2 := by
        rw [hpool]
        exact (hholds.perform action).2
      refine ⟨_, hholds', fun k v hfind => .inl ?_⟩
      exact Table.within_perform hholds.table_proper _ hwrites k v hfind

/-! ## Order -/

/-- Where a task stands to the line of a key. -/
def place (y : PoolSystem κ ν ε) (k : κ) : Nat → LinePlace := LinePlace.of k ∘ y.stage

theorem place_of_stage {work : PoolWork ν ε} (hwork : y.stage t = some (k, work)) :
    y.place k t = work.place := by
  rw [place, Function.comp_apply, hwork]
  exact if_pos rfl

/-- A pool is in order. -/
structure InOrder (y : PoolSystem κ ν ε) : Prop where
  fresh : ∀ t, y.nextTask ≤ t → y.stage t = none
  lined : ∀ k, Lined (y.pool.lines.line k) (y.place k)
  cache : ∃ table, y.pool.cache.Holds table
  /-- No value is found for a key that is resident. -/
  absent : ∀ k t, y.InPhase k .finding t → y.pool.cache.peek k = none

namespace InOrder

theorem eq_of_leading (h : y.InOrder) (ht : y.place k t = .leading) (hu : y.place k u = .leading) :
    t = u :=
  (h.lined k).attends.eq_of_leads ht hu

/-- Only one task at a time finds the value of a key. -/
theorem eq_of_finding (h : y.InOrder) (ht : y.InPhase k .finding t) (hu : y.InPhase k .finding u) :
    t = u := by
  obtain ⟨find?, ht⟩ := ht
  obtain ⟨found?, hu⟩ := hu
  exact h.eq_of_leading (place_of_stage ht) (place_of_stage hu)

theorem lined_moved (h : y.InOrder) (hmoved : y.Moved z mv) (k : κ) :
    Lined (z.pool.lines.line k) (z.place k) := by
  have hlined := h.lined k
  cases hmoved with
  | @start k' work hstart hstage hpool hnotices hnext =>
      have hplace : z.place k = y.place k := by
        rw [place, hstage, Function.comp_update]
        apply Function.update_eq_self_iff.mpr
        rw [Function.comp_apply, h.fresh _ Nat.le.refl, LinePlace.of, LinePlace.of]
        rw [PoolWork.place_of_isStart hstart, ite_self]
      rw [hplace, hpool]
      exact hlined
  | @step t k' work noted left hwork hsteps hstage hnotices hnext =>
      have hplace : z.place k = Function.update (y.place k) t
          (LinePlace.of k (left.map fun work => (k', work))) := by
        rw [place, hstage, Function.comp_update]
        rfl
      have hline := hsteps.lineStep
      rw [hplace]
      by_cases hk : k = k'
      · subst hk
        rw [LinePlace.of_map_self]
        rw [← place_of_stage hwork] at hline
        exact hline.lined hlined
      · have hout : y.place k t = .outside := by
          rw [place, Function.comp_apply, hwork]
          exact if_neg (Ne.symm hk)
        rw [LinePlace.of_map_of_ne (Ne.symm hk), ← hout, Function.update_eq_self,
          hline.line_of_ne hk]
        exact hlined
  | @resolve t result hstage hpool hnotices hnext =>
      have hplace : z.place k = y.place k := by
        rw [place, hstage, Function.comp_update]
        apply Function.update_eq_self_iff.mpr
        rw [Function.comp_apply]
        cases y.stage t with
        | none => rfl
        | some x => simp only [Option.map_some, LinePlace.of, PoolWork.place_told]
      rw [hplace, hpool]
      exact hlined
  | @abandon t hstage hpool hnotices hnext =>
      have hplace : z.place k = Function.update (y.place k) t .outside := by
        rw [place, hstage, Function.comp_update]
        rfl
      have hline : z.pool.lines.line k = (y.pool.lines.line k).erase t := by
        rw [hpool]
        exact LockTable.line_leaveAll hlined.attends.nodup t
      rw [hplace, hline]
      exact hlined.leave t
  | act hwrites hstage hpool hnotices hnext =>
      rw [place, hstage, hpool]
      exact hlined

theorem absent_moved (h : y.InOrder) (hmoved : y.Moved z mv) (hfinding : z.InPhase k .finding t) :
    z.pool.cache.peek k = none := by
  obtain ⟨table, hholds⟩ := h.cache
  obtain ⟨table', hholds', hfrom⟩ := hmoved.holds hholds
  rw [hholds'.peek_eq]
  by_contra hne
  obtain ⟨v, hfind⟩ := Option.ne_none_iff_exists'.mp hne
  have hleaving : ∀ u, y.InPhase k .finding u → z.InPhase k (.leaving (.ok v)) u → u ≠ t := by
    rintro u hu ⟨find?, hleaves⟩ rfl
    obtain ⟨found?, hfinds⟩ := hfinding
    cases hleaves.symm.trans hfinds
  rcases hmoved.inPhase_before hfinding with
    hbefore | hlooking | ⟨work, noted, find?, rfl, hwork, hsteps⟩
  · have habsent := h.absent k t hbefore
    rw [hholds.peek_eq] at habsent
    rcases hfrom k v hfind with hheld | ⟨u, hu, hleaves⟩
    · cases habsent.symm.trans hheld
    · exact hleaving u hu hleaves (h.eq_of_finding hu hbefore)
  · cases hlooking
  · generalize z.pool = pool at hsteps
    cases hsteps with
    | turnMiss hturn habsent =>
        rw [hholds.peek_eq] at habsent
        rcases hfrom k v hfind with hheld | ⟨u, hu, hleaves⟩
        · cases habsent.symm.trans hheld
        · obtain ⟨found?, hu'⟩ := hu
          have hhead := (h.lined k).attends.head_of_leads u (place_of_stage hu')
          have hturn : (y.pool.lines.line k).head? = some t := of_decide_eq_true hturn
          exact hleaving u ⟨found?, hu'⟩ hleaves (Option.some.inj (hhead.symm.trans hturn))

theorem moved (h : y.InOrder) (hmoved : y.Moved z mv) : z.InOrder where
  fresh t ht := by
    have hnone := h.fresh t (hmoved.nextTask_le.trans ht)
    rcases hmoved.stage_eq_none hnone with hstage | ⟨rfl, hnext⟩
    · exact hstage
    · exact absurd (hnext ▸ ht) (Nat.not_succ_le_self _)
  lined := h.lined_moved hmoved
  cache := by
    obtain ⟨table, hholds⟩ := h.cache
    obtain ⟨table', hholds', -⟩ := hmoved.holds hholds
    exact ⟨table', hholds'⟩
  absent _ _ := h.absent_moved hmoved

theorem moved_of_move (h : y.InOrder) (hmove : y.move mv = some z) : y.Moved z mv :=
  PoolSystem.moved_of_move (h.fresh _ Nat.le.refl) hmove

/-- Every run keeps the order. -/
theorem play (h : y.InOrder) {moves : List (PoolMove κ ν ε)} (hrun : y.play moves = some z) :
    z.InOrder :=
  foldlM_induction hrun h fun _ _ _ _ _ ha hmove => ha.moved (ha.moved_of_move hmove)

end InOrder

end PoolSystem

end StreamStore
