import StreamStore.Proofs.Sync.Calls

/-!
# Exclusion by key

However calls for locks interleave, a key's lock has one holder at most, all who refer to a gate of
a key refer to the same one, and the lock goes to those who came first.  A call waits only for
calls for its own key, and no call for another key changes how it stands.  A key has a gate just
while some call holds or awaits its lock, but for the time between the two steps of those who leave;
so none is left over when all are done.

The steps of calls keep this: who refers to a gate stands in its crowd or in its line, so the gate
stays the one in use, and it is dropped only when crowd and line are empty.
-/

namespace StreamStore.LockCalls

variable {κ : Type} [DecidableEq κ] {y z : LockCalls κ} {k k' : κ} {t u n m : Nat}
  {phase before after : LockPhase} {mv : LockMove κ} {moves : List (LockMove κ)}

/-- The calls that wait in the line of a key, in order. -/
def waiters (y : LockCalls κ) (k : κ) : List Nat :=
  waitersIn (y.table.line k) (y.stand LockPhase.place k)

/-- A table keeps a gate for each key as the calls for the key have it, and the logs agree. -/
structure Kept (y : LockCalls κ) : Prop where
  refers : ∀ k t phase n, y.IsAt k t phase → phase.gate? = some n →
    y.table.current.find? k = some n
  crowded : ∀ k, Lined (y.table.crowd k) (y.stand LockPhase.nearness k)
  lined : ∀ k, Lined (y.table.line k) (y.stand LockPhase.place k)
  numbered : ∀ k n, y.table.current.find? k = some n → n < y.table.fresh
  /-- A gate is kept for those who refer to it, or one who will drop it. -/
  used : ∀ k n, y.table.current.find? k = some n →
    y.table.crowd k ≠ [] ∨ y.table.line k ≠ [] ∨ ∃ t, y.IsAt k t .leaving
  arrived_nodup : y.arrived.Nodup
  hasArrived : ∀ k t, (k, t) ∈ y.arrived → ∃ phase, y.IsAt k t phase ∧ phase.HasArrived
  served_of_holding : ∀ k t n, y.IsAt k t (.holding n) → (k, t) ∈ y.served
  order : ∀ k, (callsFor k y.served ++ y.waiters k).Sublist (callsFor k y.arrived)

namespace Kept

theorem start : ({} : LockCalls κ).Kept where
  refers _ _ _ _ hcall := nomatch hcall
  crowded _ := .nil
  lined _ := .nil
  numbered _ _ hcurrent := nomatch hcurrent
  used _ _ hcurrent := nomatch hcurrent
  arrived_nodup := List.nodup_nil
  hasArrived _ _ hmem := nomatch hmem
  served_of_holding _ _ _ hcall := nomatch hcall
  order _ := .slnil

/-- Who refers to a gate is in its crowd or in its line. -/
theorem mem_of_gate (h : y.Kept) (hcall : y.IsAt k t phase) (hgate : phase.gate? = some n) :
    t ∈ y.table.crowd k ∨ t ∈ y.table.line k := by
  cases phase with
  | approaching m =>
      left
      apply (h.crowded k).mem_of_ne
      rw [stand_of_isAt hcall]
      exact LinePlace.noConfusion
  | waiting m | holding m =>
      right
      apply (h.lined k).mem_of_ne
      rw [stand_of_isAt hcall]
      exact LinePlace.noConfusion
  | asking | leaving | done => cases hgate

theorem refers_moved (h : y.Kept) (hmoved : y.Moved z k') (hcall : z.IsAt k t phase)
    (hgate : phase.gate? = some n) : z.table.current.find? k = some n := by
  cases hmoved with
  | ask hcalls htable =>
      have hnew : phase ≠ .asking := by
        rintro rfl
        cases hgate
      rw [htable]
      exact h.refers k t phase n ((isAt_of_calls_append hcalls hnew).mp hcall) hgate
  | attach htakes htable =>
      rw [htakes.isAt_iff] at hcall
      rw [htable, LockTable.current_attach]
      split at hcall
      · obtain ⟨rfl, rfl⟩ := hcall
        rw [if_pos rfl]
        exact hgate
      · have hcurrent := h.refers k t phase n hcall hgate
        split
        next hk =>
          subst hk
          rw [LockTable.attach_eq_of_current hcurrent]
        · exact hcurrent
  | enter htakes htable | turn htakes _ htable =>
      rw [htakes.isAt_iff] at hcall
      rw [htable]
      split at hcall
      · obtain ⟨rfl, rfl⟩ := hcall
        exact h.refers _ _ _ n htakes.call hgate
      · exact h.refers k t phase n hcall hgate
  | withdraw htakes _ htable =>
      rw [htakes.isAt_iff] at hcall
      rw [htable]
      split at hcall
      · obtain ⟨rfl, rfl⟩ := hcall
        cases hgate
      · exact h.refers k t phase n hcall hgate
  | reclaim htakes htable =>
      rw [htakes.isAt_iff] at hcall
      split at hcall
      · obtain ⟨rfl, rfl⟩ := hcall
        cases hgate
      · rw [htable, LockTable.current_reclaim, if_neg]
        · exact h.refers k t phase n hcall hgate
        · rintro ⟨rfl, hcrowd, hline⟩
          have hmem := h.mem_of_gate hcall hgate
          rw [hcrowd, hline] at hmem
          exact hmem.elim List.not_mem_nil List.not_mem_nil

theorem crowded_moved (h : y.Kept) (hmoved : y.Moved z k') (k : κ) :
    Lined (z.table.crowd k) (z.stand LockPhase.nearness k) := by
  cases hmoved with
  | ask hcalls htable =>
      rw [stand_of_calls_append hcalls rfl, htable]
      exact h.crowded k
  | attach htakes htable =>
      rw [htakes.stand_eq, htable, LockTable.crowd_attach]
      split_ifs
      · exact (h.crowded _).join (stand_of_isAt htakes.call)
      · exact h.crowded k
  | enter htakes htable =>
      rw [htakes.stand_eq, htable, LockTable.crowd_enter (h.refers _ _ _ _ htakes.call rfl)]
      split_ifs
      · exact (h.crowded _).leave _
      · exact h.crowded k
  | turn htakes _ htable =>
      rw [htakes.stand_of_eq rfl, htable]
      exact h.crowded k
  | withdraw htakes hgate htable =>
      rw [htakes.stand_eq, htable, LockTable.crowd_withdraw (h.refers _ _ _ _ htakes.call hgate)]
      split_ifs
      · exact (h.crowded _).leave _
      · exact h.crowded k
  | reclaim htakes htable =>
      rw [htakes.stand_of_eq rfl, htable, LockTable.crowd_reclaim]
      exact h.crowded k

theorem lined_moved (h : y.Kept) (hmoved : y.Moved z k') (k : κ) :
    Lined (z.table.line k) (z.stand LockPhase.place k) := by
  cases hmoved with
  | ask hcalls htable =>
      rw [stand_of_calls_append hcalls rfl, htable]
      exact h.lined k
  | attach htakes htable =>
      rw [htakes.stand_of_eq rfl, htable, LockTable.line_attach]
      exact h.lined k
  | enter htakes htable =>
      rw [htakes.stand_eq, htable, LockTable.line_enter (h.refers _ _ _ _ htakes.call rfl)]
      split_ifs
      · exact (h.lined _).join (stand_of_isAt htakes.call)
      · exact h.lined k
  | turn htakes hhead htable =>
      rw [htakes.stand_eq, htable]
      split_ifs with hk
      · subst hk
        refine (h.lined k).turn (stand_of_isAt htakes.call) ?_
        rw [LockTable.line_eq (h.refers k _ _ _ htakes.call rfl)]
        exact hhead
      · exact h.lined k
  | withdraw htakes hgate htable =>
      rw [htakes.stand_eq, htable, LockTable.line_withdraw (h.refers _ _ _ _ htakes.call hgate)]
      split_ifs
      · exact (h.lined _).leave _
      · exact h.lined k
  | reclaim htakes htable =>
      rw [htakes.stand_of_eq rfl, htable, LockTable.line_reclaim]
      exact h.lined k

theorem numbered_moved (h : y.Kept) (hmoved : y.Moved z k')
    (hcurrent : z.table.current.find? k = some n) : n < z.table.fresh := by
  cases hmoved with
  | attach _ htable =>
      rw [htable, LockTable.current_attach] at hcurrent
      rw [htable]
      split at hcurrent
      · exact Option.some.inj hcurrent ▸ LockTable.attach_lt_fresh (h.numbered _) _
      · exact (h.numbered k n hcurrent).trans_le (LockTable.fresh_le_attach _ _ _)
  | reclaim _ htable =>
      rw [htable, LockTable.current_reclaim] at hcurrent
      rw [htable, LockTable.fresh_reclaim]
      split at hcurrent
      · cases hcurrent
      · exact h.numbered k n hcurrent
  | ask _ htable | enter _ htable | turn _ _ htable | withdraw _ _ htable =>
      rw [htable] at hcurrent ⊢
      exact h.numbered k n hcurrent

theorem used_moved (h : y.Kept) (hmoved : y.Moved z k')
    (hcurrent : z.table.current.find? k = some n) :
    z.table.crowd k ≠ [] ∨ z.table.line k ≠ [] ∨ ∃ t, z.IsAt k t .leaving := by
  cases hmoved with
  | ask hcalls htable =>
      have hleaving : LockPhase.leaving ≠ .asking := LockPhase.noConfusion
      rw [htable] at hcurrent ⊢
      simp only [isAt_of_calls_append hcalls hleaving]
      exact h.used k n hcurrent
  | @attach u htakes htable =>
      rw [htable, LockTable.current_attach] at hcurrent
      rw [htable, LockTable.crowd_attach, LockTable.line_attach]
      split at hcurrent
      next hk =>
        rw [if_pos hk]
        exact .inl (List.append_ne_nil_of_right_ne_nil _ (List.cons_ne_nil _ _))
      next hk =>
        rw [if_neg hk]
        simp only [htakes.isAt_of_key_ne hk]
        exact h.used k n hcurrent
  | @enter u m htakes htable =>
      have hgate := h.refers k' u _ m htakes.call rfl
      rw [htable] at hcurrent
      rw [htable, LockTable.crowd_enter hgate, LockTable.line_enter hgate]
      split_ifs with hk
      · exact .inr (.inl (List.append_ne_nil_of_right_ne_nil _ (List.cons_ne_nil _ _)))
      · simp only [htakes.isAt_of_key_ne hk]
        exact h.used k n hcurrent
  | turn htakes _ htable =>
      rw [htable] at hcurrent ⊢
      refine (h.used k n hcurrent).imp_right (Or.imp_right ?_)
      rintro ⟨t, hleaving⟩
      refine ⟨t, (htakes.isAt_of_ne ?_).mpr hleaving⟩
      rintro rfl
      cases (hleaving.unique htakes.call).2
  | @withdraw u m before htakes hgate htable =>
      have hgate := h.refers k' u _ m htakes.call hgate
      rw [htable] at hcurrent
      rw [htable, LockTable.crowd_withdraw hgate, LockTable.line_withdraw hgate]
      split_ifs with hk
      · exact .inr (.inr ⟨u, hk ▸ htakes.isAt_self⟩)
      · simp only [htakes.isAt_of_key_ne hk]
        exact h.used k n hcurrent
  | @reclaim u htakes htable =>
      rw [htable, LockTable.current_reclaim] at hcurrent
      rw [htable, LockTable.crowd_reclaim, LockTable.line_reclaim]
      split at hcurrent
      · cases hcurrent
      next hkeeps =>
        by_cases hk : k = k'
        · rw [← or_assoc]
          left
          by_contra hempty
          rw [not_or, not_not, not_not, hk] at hempty
          exact hkeeps ⟨hk, hempty⟩
        · simp only [htakes.isAt_of_key_ne hk]
          exact h.used k n hcurrent

theorem arrived_nodup_moved (h : y.Kept) (hmoved : y.Moved z k') : z.arrived.Nodup := by
  cases hmoved with
  | @enter u m htakes _ harrived =>
      rw [harrived, ← List.concat_eq_append]
      refine h.arrived_nodup.concat fun hmem => ?_
      obtain ⟨phase, hcall, harrived⟩ := h.hasArrived k' u hmem
      cases (hcall.unique htakes.call).2
      exact harrived
  | ask _ _ harrived | attach _ _ harrived | turn _ _ _ harrived | withdraw _ _ _ harrived
  | reclaim _ _ harrived =>
      rw [harrived]
      exact h.arrived_nodup

/-- Who got in line stays one who did. -/
theorem hasArrived_of_takes (h : y.Kept) (htakes : y.Takes z k' u before after)
    (hafter : before.HasArrived → after.HasArrived) (hmem : (k, t) ∈ y.arrived) :
    ∃ phase, z.IsAt k t phase ∧ phase.HasArrived := by
  obtain ⟨phase, hcall, harrived⟩ := h.hasArrived k t hmem
  by_cases ht : t = u
  · subst ht
    obtain ⟨rfl, rfl⟩ := hcall.unique htakes.call
    exact ⟨after, htakes.isAt_self, hafter harrived⟩
  · exact ⟨phase, (htakes.isAt_of_ne ht).mpr hcall, harrived⟩

theorem hasArrived_moved (h : y.Kept) (hmoved : y.Moved z k') (hmem : (k, t) ∈ z.arrived) :
    ∃ phase, z.IsAt k t phase ∧ phase.HasArrived := by
  cases hmoved with
  | ask hcalls _ harrived =>
      obtain ⟨phase, hcall, harrived⟩ := h.hasArrived k t (harrived ▸ hmem)
      refine ⟨phase, (isAt_of_calls_append hcalls ?_).mpr hcall, harrived⟩
      rintro rfl
      exact harrived
  | attach htakes _ harrived => exact h.hasArrived_of_takes htakes False.elim (harrived ▸ hmem)
  | enter htakes _ harrived =>
      rw [harrived, List.mem_append, List.mem_singleton, Prod.mk.injEq] at hmem
      rcases hmem with hmem | ⟨rfl, rfl⟩
      · exact h.hasArrived_of_takes htakes False.elim hmem
      · exact ⟨_, htakes.isAt_self, trivial⟩
  | turn htakes _ _ harrived | withdraw htakes _ _ harrived | reclaim htakes _ harrived =>
      exact h.hasArrived_of_takes htakes (fun _ => trivial) (harrived ▸ hmem)

theorem served_of_holding_moved (h : y.Kept) (hmoved : y.Moved z k')
    (hcall : z.IsAt k t (.holding n)) : (k, t) ∈ z.served := by
  cases hmoved with
  | ask hcalls _ _ hserved =>
      rw [hserved]
      exact h.served_of_holding k t n ((isAt_of_calls_append hcalls LockPhase.noConfusion).mp hcall)
  | turn htakes _ _ _ hserved =>
      rw [htakes.isAt_iff] at hcall
      rw [hserved]
      split at hcall
      next ht =>
        rw [ht, ← hcall.1]
        exact List.mem_append_right _ List.mem_cons_self
      · exact List.mem_append_left _ (h.served_of_holding k t n hcall)
  | attach htakes _ _ hserved | enter htakes _ _ hserved | withdraw htakes _ _ _ hserved
  | reclaim htakes _ _ hserved =>
      rw [htakes.isAt_iff] at hcall
      rw [hserved]
      split at hcall
      · cases hcall.2
      · exact h.served_of_holding k t n hcall

theorem order_moved (h : y.Kept) (hmoved : y.Moved z k') (k : κ) :
    (callsFor k z.served ++ z.waiters k).Sublist (callsFor k z.arrived) := by
  have horder := h.order k
  rw [waiters] at horder ⊢
  cases hmoved with
  | ask hcalls htable harrived hserved =>
      rw [stand_of_calls_append hcalls rfl, htable, harrived, hserved]
      exact horder
  | attach htakes htable harrived hserved =>
      rw [htakes.stand_of_eq rfl, htable, LockTable.line_attach, harrived, hserved]
      exact horder
  | enter htakes htable harrived hserved =>
      rw [htakes.stand_eq, htable, LockTable.line_enter (h.refers _ _ _ _ htakes.call rfl),
        harrived, hserved, callsFor_append]
      split_ifs with hk
      · subst hk
        rw [LockPhase.place, waitersIn_join (h.lined k) (stand_of_isAt htakes.call),
          ← List.append_assoc]
        exact horder.append_right _
      · exact horder
  | turn htakes hhead htable harrived hserved =>
      rw [htakes.stand_eq, htable, harrived, hserved, callsFor_append]
      split_ifs with hk
      · subst hk
        rw [← LockTable.line_eq (h.refers k _ _ _ htakes.call rfl)] at hhead
        rw [waitersIn_turn (h.lined k) (stand_of_isAt htakes.call) hhead] at horder
        rw [List.append_assoc, List.singleton_append]
        exact horder
      · exact horder
  | withdraw htakes hgate htable harrived hserved =>
      rw [htakes.stand_eq, htable, LockTable.line_withdraw (h.refers _ _ _ _ htakes.call hgate),
        harrived, hserved]
      split_ifs with hk
      · subst hk
        exact ((waitersIn_leave_sublist _ _ _).append_left _).trans horder
      · exact horder
  | reclaim htakes htable harrived hserved =>
      rw [htakes.stand_of_eq rfl, htable, LockTable.line_reclaim, harrived, hserved]
      exact horder

theorem moved (h : y.Kept) (hmoved : y.Moved z k') : z.Kept where
  refers _ _ _ _ := h.refers_moved hmoved
  crowded := h.crowded_moved hmoved
  lined := h.lined_moved hmoved
  numbered _ _ := h.numbered_moved hmoved
  used _ _ := h.used_moved hmoved
  arrived_nodup := h.arrived_nodup_moved hmoved
  hasArrived _ _ := h.hasArrived_moved hmoved
  served_of_holding _ _ _ := h.served_of_holding_moved hmoved
  order := h.order_moved hmoved

/-- Every run keeps the table as the calls have it. -/
theorem play (h : ({} : LockCalls κ).play moves = some y) : y.Kept :=
  foldlM_induction h start fun _ _ _ _ _ ha hmove => by
    obtain ⟨k, -, hmoved⟩ := moved_of_move hmove
    exact ha.moved hmoved

end Kept

/-- What holds of locks by key at all times. -/
structure Excludes (y : LockCalls κ) : Prop where
  one_holder : ∀ k t u n m, y.IsAt k t (.holding n) → y.IsAt k u (.holding m) → t = u
  /-- All who refer to a gate of a key refer to one gate, whose number no later gate gets. -/
  one_gate : ∀ k t u before after n m, y.IsAt k t before → before.gate? = some n →
    y.IsAt k u after → after.gate? = some m → n = m ∧ n < y.table.fresh
  served_in_order : ∀ k, (callsFor k y.arrived).Nodup ∧
    (callsFor k y.served).Sublist (callsFor k y.arrived)
  /-- Who got in line before a call that was served is not waiting any more. -/
  served_first : ∀ k t u n, t ∈ callsFor k y.served → y.IsAt k u (.waiting n) →
    [t, u].Sublist (callsFor k y.arrived)
  served_of_holding : ∀ k t n, y.IsAt k t (.holding n) → t ∈ callsFor k y.served
  /-- A call that cannot go on is where it should be, or waits for a call for its own key. -/
  waits_in_line : ∀ k t phase, y.IsAt k t phase → y.move (.go t) = none →
    phase = .done ∨ (∃ n, phase = .holding n) ∨ ∃ n u, phase = .waiting n ∧ u ≠ t ∧
      (y.table.line k).head? = some u ∧ (y.IsAt k u (.waiting n) ∨ y.IsAt k u (.holding n))
  /-- No move of a call for one key changes how the calls for another stand. -/
  apart : ∀ k mv z, y.keyOf mv ≠ some k → y.move mv = some z →
    z.table.current.find? k = y.table.current.find? k ∧ z.table.line k = y.table.line k ∧
      ∀ t phase, y.IsAt k t phase →
        z.IsAt k t phase ∧ (z.move (.go t)).isSome = (y.move (.go t)).isSome
  /-- The table has the key of each call that holds or awaits a lock. -/
  kept : ∀ k t phase n, y.IsAt k t phase → phase.gate? = some n →
    y.table.current.contains k = true
  /-- It has no other keys but those whose gates are about to be dropped. -/
  dropped : ∀ k, y.table.current.contains k = true →
    (∃ t phase n, y.IsAt k t phase ∧ phase.gate? = some n) ∨ ∃ t, y.IsAt k t .leaving
  empty : (∀ k t phase, y.IsAt k t phase → phase = .asking ∨ phase = .done) → y.table.size = 0

namespace Kept

theorem isAt_of_mem_crowd (h : y.Kept) (hmem : t ∈ y.table.crowd k) :
    ∃ n, y.IsAt k t (.approaching n) := by
  have hstands := (h.crowded k).attends.stands_of_mem t hmem
  obtain ⟨phase, hcall, hstand⟩ := exists_isAt_of_stand hstands
  rw [hstand] at hstands
  cases phase with
  | approaching n => exact ⟨n, hcall⟩
  | asking | waiting n | holding n | leaving | done => exact absurd rfl hstands

theorem isAt_of_mem_line (h : y.Kept) (hmem : t ∈ y.table.line k) :
    ∃ n, y.IsAt k t (.waiting n) ∨ y.IsAt k t (.holding n) := by
  have hstands := (h.lined k).attends.stands_of_mem t hmem
  obtain ⟨phase, hcall, hstand⟩ := exists_isAt_of_stand hstands
  rw [hstand] at hstands
  cases phase with
  | waiting n => exact ⟨n, .inl hcall⟩
  | holding n => exact ⟨n, .inr hcall⟩
  | asking | approaching n | leaving | done => exact absurd rfl hstands

theorem dropped (h : y.Kept) (hcontains : y.table.current.contains k = true) :
    (∃ t phase n, y.IsAt k t phase ∧ phase.gate? = some n) ∨ ∃ t, y.IsAt k t .leaving := by
  obtain ⟨n, hcurrent⟩ := (y.table.current.contains_iff k).mp hcontains
  rcases h.used k n hcurrent with hcrowd | hline | hleaving
  · obtain ⟨t, hmem⟩ := List.exists_mem_of_ne_nil _ hcrowd
    obtain ⟨m, hcall⟩ := h.isAt_of_mem_crowd hmem
    exact .inl ⟨t, _, m, hcall, rfl⟩
  · obtain ⟨t, hmem⟩ := List.exists_mem_of_ne_nil _ hline
    obtain ⟨m, hcall | hcall⟩ := h.isAt_of_mem_line hmem
    · exact .inl ⟨t, _, m, hcall, rfl⟩
    · exact .inl ⟨t, _, m, hcall, rfl⟩
  · exact .inr hleaving

theorem empty (h : y.Kept)
    (hidle : ∀ k t phase, y.IsAt k t phase → phase = .asking ∨ phase = .done) :
    y.table.size = 0 := by
  have hkeys : ∀ k, k ∉ y.table.current.keys := by
    intro k hmem
    have hcontains : y.table.current.contains k = true := by
      rw [Table.contains, Option.isSome_iff_ne_none]
      exact mt Table.find?_eq_none_iff.mp (not_not_intro hmem)
    rcases h.dropped hcontains with ⟨t, phase, n, hcall, hgate⟩ | ⟨t, hcall⟩
    · rcases hidle k t phase hcall with rfl | rfl <;> cases hgate
    · rcases hidle k t _ hcall with hphase | hphase <;> cases hphase
  have hnil := List.eq_nil_iff_forall_not_mem.mpr hkeys
  rw [LockTable.size, Table.size, ← List.length_map (·.1), ← Table.keys, hnil, List.length_nil]

theorem served_first (h : y.Kept) (ht : t ∈ callsFor k y.served) (hu : y.IsAt k u (.waiting n)) :
    [t, u].Sublist (callsFor k y.arrived) := by
  refine .trans ?_ (h.order k)
  have hwaits : u ∈ y.waiters k := (mem_waitersIn (h.lined k)).mpr (stand_of_isAt hu)
  exact (List.singleton_sublist.mpr ht).append (List.singleton_sublist.mpr hwaits)

/-- Whether a call can go on depends on how far it has come and on the line of its key. -/
theorem isSome_move_go (h : y.Kept) (hcall : y.IsAt k t phase) :
    (y.move (.go t)).isSome = phase.mayGo ((y.table.line k).head? = some t) := by
  have hmove : y.move (.go t) = y.go k t phase := by
    rw [move, show y.calls[t]? = some (k, phase) from hcall]
    rfl
  rw [hmove]
  cases phase with
  | waiting n =>
      rw [go, LockTable.hasTurn, ← LockTable.line_eq (h.refers k t _ n hcall rfl)]
      split
      next hturn => exact hturn.symm
      next hturn => exact (Bool.eq_false_iff.mpr hturn).symm
  | _ => rfl

theorem waits_in_line (h : y.Kept) (hcall : y.IsAt k t phase) (hmove : y.move (.go t) = none) :
    phase = .done ∨ (∃ n, phase = .holding n) ∨ ∃ n u, phase = .waiting n ∧ u ≠ t ∧
      (y.table.line k).head? = some u ∧ (y.IsAt k u (.waiting n) ∨ y.IsAt k u (.holding n)) := by
  have hstuck := h.isSome_move_go hcall
  rw [hmove] at hstuck
  cases phase with
  | asking | approaching n | leaving => cases hstuck
  | holding n => exact .inr (.inl ⟨n, rfl⟩)
  | done => exact .inl rfl
  | waiting n =>
      have hmem := (h.mem_of_gate hcall rfl).resolve_left fun hcrowd => by
        obtain ⟨m, hbefore⟩ := h.isAt_of_mem_crowd hcrowd
        cases (hbefore.unique hcall).2
      obtain ⟨u, rest, hline⟩ := List.exists_cons_of_ne_nil (List.ne_nil_of_mem hmem)
      have hhead : (y.table.line k).head? = some u := by rw [hline, List.head?_cons]
      have hne : u ≠ t := by
        rintro rfl
        rw [decide_eq_true hhead] at hstuck
        cases hstuck
      obtain ⟨m, hfirst⟩ := h.isAt_of_mem_line (List.mem_of_head? hhead)
      have hgate : m = n := by
        have hcurrent := h.refers k t _ n hcall rfl
        rcases hfirst with hfirst | hfirst
        · exact Option.some.inj ((h.refers k u _ m hfirst rfl).symm.trans hcurrent)
        · exact Option.some.inj ((h.refers k u _ m hfirst rfl).symm.trans hcurrent)
      exact .inr (.inr ⟨n, u, rfl, hne, hhead, hgate ▸ hfirst⟩)

/-- A move about one key leaves the gate and the line of every other. -/
theorem line_of_ne (h : y.Kept) (hmoved : y.Moved z k') (hne : k ≠ k') :
    z.table.current.find? k = y.table.current.find? k ∧ z.table.line k = y.table.line k := by
  cases hmoved with
  | ask _ htable | turn _ _ htable => exact htable ▸ ⟨rfl, rfl⟩
  | attach _ htable =>
      rw [htable, LockTable.current_attach, if_neg hne, LockTable.line_attach]
      exact ⟨rfl, rfl⟩
  | enter htakes htable =>
      rw [htable, LockTable.line_enter (h.refers _ _ _ _ htakes.call rfl), if_neg hne]
      exact ⟨rfl, rfl⟩
  | withdraw htakes hgate htable =>
      rw [htable, LockTable.line_withdraw (h.refers _ _ _ _ htakes.call hgate), if_neg hne]
      exact ⟨rfl, rfl⟩
  | reclaim _ htable =>
      rw [htable, LockTable.current_reclaim, if_neg (fun hdrop => hne hdrop.1),
        LockTable.line_reclaim]
      exact ⟨rfl, rfl⟩

theorem apart (h : y.Kept) (hkey : y.keyOf mv ≠ some k) (hmove : y.move mv = some z) :
    z.table.current.find? k = y.table.current.find? k ∧ z.table.line k = y.table.line k ∧
      ∀ t phase, y.IsAt k t phase →
        z.IsAt k t phase ∧ (z.move (.go t)).isSome = (y.move (.go t)).isSome := by
  obtain ⟨k', hkey', hmoved⟩ := moved_of_move hmove
  have hne : k ≠ k' := by
    rintro rfl
    exact hkey hkey'
  obtain ⟨hcurrent, hline⟩ := h.line_of_ne hmoved hne
  refine ⟨hcurrent, hline, fun t phase hcall => ?_⟩
  have hcall' := hmoved.isAt_of_ne hne hcall
  refine ⟨hcall', ?_⟩
  rw [h.isSome_move_go hcall, (h.moved hmoved).isSome_move_go hcall', hline]

end Kept

/-- However calls for locks interleave, with locks given back and calls given up at any time, the
locks exclude and none is left over. -/
theorem excludes_of_play (h : ({} : LockCalls κ).play moves = some y) : y.Excludes := by
  have hkept := Kept.play h
  constructor
  · intro k t u n m ht hu
    exact (hkept.lined k).attends.eq_of_leads (stand_of_isAt ht) (stand_of_isAt hu)
  · intro k t u before after n m ht hn hu hm
    have hcurrent := hkept.refers k t before n ht hn
    have hcurrent' := hkept.refers k u after m hu hm
    exact ⟨Option.some.inj (hcurrent.symm.trans hcurrent'), hkept.numbered k n hcurrent⟩
  · intro k
    exact ⟨nodup_callsFor hkept.arrived_nodup k,
      (List.sublist_append_left _ _).trans (hkept.order k)⟩
  · intro k t u n
    exact hkept.served_first
  · intro k t n hcall
    exact mem_callsFor.mpr (hkept.served_of_holding k t n hcall)
  · intro k t phase
    exact hkept.waits_in_line
  · intro k mv z
    exact hkept.apart
  · intro k t phase n hcall hgate
    exact (y.table.current.contains_iff k).mpr ⟨n, hkept.refers k t phase n hcall hgate⟩
  · intro k
    exact hkept.dropped
  · exact hkept.empty

/-- Two calls wait behind the holder of a key's lock, and one of them is given up.  Between its two
steps the last holder drops the key's gate and a new call makes another one, while another key is
locked all the time. -/
def crowding : List (LockMove Nat) :=
  [.ask 7, .ask 7, .ask 7, .ask 8, .go 0, .go 0, .go 0, .go 1, .go 3, .go 2, .go 1, .go 3, .go 2,
    .go 3, .drop 1, .drop 0, .go 0, .go 2, .drop 2, .go 2, .ask 7, .go 4, .go 1, .go 4, .go 4,
    .drop 4, .go 4, .drop 3, .go 3]

theorem excludes_of_crowding :
    ∃ y, ({} : LockCalls Nat).play crowding = some y ∧
      y.served = [(7, 0), (8, 3), (7, 2), (7, 4)] ∧ y.table.size = 0 ∧ y.Excludes := by
  have hplayed : (({} : LockCalls Nat).play crowding).any (fun y =>
      y.served == [(7, 0), (8, 3), (7, 2), (7, 4)] && y.table.size == 0) = true := by
    decide +kernel
  obtain ⟨y, hrun, hy⟩ := (Option.any_eq_true _ _).mp hplayed
  rw [Bool.and_eq_true, beq_iff_eq, beq_iff_eq] at hy
  exact ⟨y, hrun, hy.1, hy.2, excludes_of_play hrun⟩

end StreamStore.LockCalls
