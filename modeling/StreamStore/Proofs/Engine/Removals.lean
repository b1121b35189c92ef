import StreamStore.Proofs.Engine.Histories

/-!
# Removals are for good

Of a run over an empty directory in which every batch that is dealt with is written,
and every removal succeeds: once a stream is removed, what is on disk for it, on its
way there and in its entry was handed off later.  An append that was not handed off
before the removal was checked against what came after it.  And a task that removes a
stream leaves the disk, the queue and the cache as they are for all other streams.
-/

namespace StreamStore

/-! ## Logs with a removal -/

namespace Log

variable {s : StreamId} {before after : List Happening}

theorem history_append_of_eq_nil (h : history s before = []) :
    history s (before ++ after) = history s after := by
  rw [history_append, h, history]

/-- The history of a stream starts again where it is removed. -/
theorem history_removed (t : TaskId) (s : StreamId) (before after : List Happening) :
    history s (before ++ .removed t s :: after) = history s after := by
  have hcleared : history s (before ++ [.removed t s]) = [] := by
    rw [history_append]
    exact if_pos rfl
  rw [List.append_cons]
  exact history_append_of_eq_nil hcleared

end Log

/-! ## What a removal leaves alone -/

namespace Engine

/-- Two engines agree on the disk, the queue and the cache but for one stream. -/
structure AgreesBut (s : StreamId) (e e' : Engine) : Prop where
  base : e'.archive.base = e.archive.base
  disk : Disk.AgreeOff (Extent.IsFileOf e.archive.base s) e.archive.disk e'.archive.disk
  batches : e'.queue.batches = e.queue.batches
  resident : ∀ s', s' ≠ s → e'.resident? s' = e.resident? s'
  events : ∀ n, (e'.entry n).events = (e.entry n).events

variable {e : Engine} {s : StreamId}

theorem AgreesBut.refl (s : StreamId) (e : Engine) : e.AgreesBut s e :=
  ⟨rfl, fun _ _ => rfl, rfl, fun _ _ => rfl, fun _ => rfl⟩

theorem agreesBut_joinEntry (s : StreamId) (e : Engine) (n : EntryId) (t : TaskId)
    (access : Access) : e.AgreesBut s (e.joinEntry n t access) :=
  ⟨rfl, fun _ _ => rfl, rfl, fun _ _ => rfl, fun n' => events_joinEntry e n n' t access⟩

theorem agreesBut_leaveEntry (s : StreamId) (e : Engine) (n : EntryId) (t : TaskId) :
    e.AgreesBut s (e.leaveEntry n t) :=
  ⟨rfl, fun _ _ => rfl, rfl, fun _ _ => rfl, fun n' => events_leaveEntry e n n' t⟩

theorem agreesBut_removeEntry {table : Table StreamId EntryId}
    (hcache : e.pool.cache.Holds table) (s : StreamId) :
    e.AgreesBut s (e.removeEntry s).2 := by
  refine ⟨rfl, fun _ _ => rfl, rfl, fun s' hs => ?_, fun _ => rfl⟩
  obtain ⟨-, hremoved⟩ := hcache.remove s
  rw [resident?, resident?, hcache.peek_eq]
  exact (hremoved.peek_eq s').trans (Table.find?_erase_of_ne table hs)

theorem agreesBut_delete (hroot : e.archive.disk.Rooted e.archive.base)
    {weather : Nat → Interference} {result : Except StorageFault Unit} {archive : Archive}
    (hrun : e.archive.delete s weather = (result, archive)) :
    e.AgreesBut s { e with archive } := by
  cases hremove : Extent.remove e.archive.disk (Extent.ofStream e.archive.base s)
    e.archive.deleteAttempts weather with
  | mk result' disk =>
      rw [Archive.delete, Archive.extent, hremove] at hrun
      cases hrun
      obtain ⟨-, hagree, -⟩ := hroot.remove_extent hremove
      exact ⟨rfl, hagree, rfl, fun _ _ => rfl, fun _ => rfl⟩

end Engine

section Steps

variable {e e' : Engine} {s : StreamId} {t : TaskId} {w : Weather}
  {table : Table StreamId EntryId}

theorem Retiring.agreesBut_step (hcache : e.pool.cache.Holds table)
    {phase phase' : Retiring} (hstep : phase.step e s t = some (e', phase')) :
    e.AgreesBut s e' := by
  cases phase with
  | start =>
      cases hstep
      exact ⟨rfl, fun _ _ => rfl, rfl, fun _ _ => rfl, fun _ => rfl⟩
  | inLine =>
      rw [Retiring.step] at hstep
      split at hstep <;> cases hstep
      exact .refl s e
  | held =>
      rw [Retiring.step] at hstep
      split at hstep <;> cases hstep <;> exact .refl s e
  | arriving n =>
      cases hstep
      exact Engine.agreesBut_joinEntry s e n t .write
  | inEntryLine n =>
      rw [Retiring.step] at hstep
      split at hstep <;> cases hstep
      exact Engine.agreesBut_removeEntry hcache s
  | unlocking n =>
      cases hstep
      exact Engine.agreesBut_leaveEntry s e n t
  | retired => cases hstep

/-- No step of a removal has to do with another stream. -/
theorem Removing.agreesBut_step (hcache : e.pool.cache.Holds table)
    (hroot : e.archive.disk.Rooted e.archive.base) {phase phase' : Removing}
    (hstep : phase.step e s t w = some (e', phase')) : e.AgreesBut s e' := by
  unfold Removing.step at hstep
  split at hstep
  · split at hstep <;> cases hstep
    exact .refl s e
  · obtain ⟨⟨e₁, phase₁⟩, hretiring, heq⟩ := Option.map_eq_some_iff.mp hstep
    cases heq
    exact Retiring.agreesBut_step hcache hretiring
  · cases hstep
    exact ⟨rfl, fun _ _ => rfl, rfl, fun _ _ => rfl, fun _ => rfl⟩
  · split at hstep
    · cases hrun : e.archive.delete s w.removal with
      | mk result archive =>
          rw [hrun] at hstep
          cases hstep
          exact Engine.agreesBut_delete hroot hrun
    · cases hstep
  · cases hstep
    exact ⟨rfl, fun _ _ => rfl, rfl, fun _ _ => rfl, fun _ => rfl⟩
  · cases hstep
    exact ⟨rfl, fun _ _ => rfl, rfl, fun _ _ => rfl, fun _ => rfl⟩
  · cases hstep

end Steps

namespace Moment

/-- Disk, queue and cache have nothing of a stream but some events: those that are
stored, and then those on their way, are just these, and an entry has the first of
them. -/
structure HoldsOnly (m : Moment) (s : StreamId) (events : List Event) : Prop where
  stored : ∃ stored, m.system.engine.archive.readAll s none none false = .ok stored ∧
    stored ++ Batch.eventsOf s m.transit = events
  resident : ∀ n, m.system.engine.resident? s = some n →
    (m.system.engine.entry n).events <+: events

/-- What is removed does not come back, and nothing else is removed with it. -/
structure RemovesForGood (m : Moment) : Prop where
  ended : ∀ before t s after,
    m.log = before ++ .ended t (.remove s (.done (.ok ()))) :: after →
    .removed t s ∈ before ∧ m.HoldsOnly s (Log.history s after)
  removed : ∀ before t s after, m.log = before ++ .removed t s :: after →
    m.HoldsOnly s (Log.history s after)
  appended : ∀ before t s after u r, m.log = before ++ .removed t s :: after →
    r.stream = s → r.drafts ≠ [] → .ended u (.append r (.done (.ok ()))) ∈ m.log →
    (∃ events, .admitted u r events ∈ before) ∨
      ∃ since events rest, after = since ++ .admitted u r events :: rest ∧
        ∀ version, r.expected = some version → version = (Log.history s since).length
  untouched : ∀ t task s phase weather m', m.system.task? t = some task →
    task.work = .remove s phase → m.move (.step t weather) = some m' →
    m.system.engine.AgreesBut s m'.system.engine

variable {m : Moment} {settings : Settings} {archive : Archive} {clock : Int64}
  {moves : List Move}

theorem holdsOnly_of_faithful (hfaithful : m.system.engine.Faithful m.stances m.log)
    (s : StreamId) : m.HoldsOnly s (Log.history s m.log) where
  stored := exists_readAll hfaithful s
  resident := fun _ hresident => (prefix_of_resident hfaithful hresident).1

/-- An append that succeeds handed its events off before a removal or after it, and was
checked against what was there then. -/
theorem admitted_of_ended (hright : Log.All Happening.Right m.log)
    {before after : List Happening} {t u : TaskId} {s : StreamId} {r : AppendRequest}
    (hlog : m.log = before ++ .removed t s :: after) (hs : r.stream = s)
    (hdrafts : r.drafts ≠ []) (hended : .ended u (.append r (.done (.ok ()))) ∈ m.log) :
    (∃ events, .admitted u r events ∈ before) ∨
      ∃ since events rest, after = since ++ .admitted u r events :: rest ∧
        ∀ version, r.expected = some version →
          version = (Log.history s since).length := by
  obtain ⟨earlier, later, hsplit⟩ := List.append_of_mem hended
  obtain ⟨events, hmem⟩ := (hright earlier _ later hsplit rfl).resolve_left hdrafts
  have hadmitted : .admitted u r events ∈ m.log := by
    rw [hsplit]
    exact List.mem_append_left _ hmem
  rw [hlog] at hadmitted
  rcases List.mem_append.mp hadmitted with hbefore | hafter
  · exact .inl ⟨events, hbefore⟩
  · obtain ⟨since, rest, rfl⟩ := List.append_of_mem
      ((List.mem_cons.mp hafter).resolve_left nofun)
    refine .inr ⟨since, events, rest, rfl, fun version hexpected => ?_⟩
    have hversion := hright (before ++ .removed t s :: since) (.admitted u r events) rest
      (by rw [hlog, List.append_assoc, List.cons_append]) version hexpected
    rwa [hs, Log.history_removed] at hversion

theorem agreesBut_of_move (hcache : ∃ table, m.system.engine.pool.cache.Holds table)
    (hroot : m.system.engine.archive.disk.Rooted m.system.engine.archive.base)
    {t : TaskId} {task : Task} {s : StreamId} {phase : Removing} {weather : Weather}
    {m' : Moment} (htask : m.system.task? t = some task)
    (hwork : task.work = .remove s phase)
    (hmove : m.move (.step t weather) = some m') :
    m.system.engine.AgreesBut s m'.system.engine := by
  obtain ⟨table, hcache⟩ := hcache
  obtain ⟨task', engine, work, htask', hstep, rfl⟩ := move_step_eq_some hmove
  cases htask.symm.trans htask'
  rw [hwork, Work.step] at hstep
  obtain ⟨⟨e', phase'⟩, hphase, heq⟩ := Option.map_eq_some_iff.mp hstep
  cases heq
  exact Removing.agreesBut_step hcache hroot hphase

theorem removesForGood_of_play (hvacant : archive.disk.Vacant archive.base)
    (hrun : (opening settings archive clock).play moves = some m)
    (hfair : Log.Fair m.log) : m.RemovesForGood := by
  obtain ⟨hfaithful, -⟩ := faithful_of_play hvacant hrun hfair
  obtain ⟨-, hright⟩ := right_of_play hvacant hrun hfair
  have hsettled := settled_of_play hrun
  constructor
  · intro before t s after hlog
    obtain ⟨hremoved, hnothing⟩ := hright before _ after hlog rfl
    refine ⟨hremoved, ?_⟩
    have hholds := holdsOnly_of_faithful hfaithful s
    rw [hlog, List.append_cons, Log.history_append_of_eq_nil] at hholds
    · exact hholds
    · rw [Log.history_append, hnothing]
      rfl
  · intro before t s after hlog
    have hholds := holdsOnly_of_faithful hfaithful s
    rwa [hlog, Log.history_removed] at hholds
  · intro before t s after u r hlog hs hdrafts hended
    exact admitted_of_ended hright hlog hs hdrafts hended
  · intro t task s phase weather m' htask hwork hmove
    exact agreesBut_of_move hsettled.inOrder.cache hfaithful.sound.rooted htask hwork hmove

/-- A removal sets in while an append holds the entry, waits until its event is written,
and is followed by an append that expects nothing to be there. -/
def racing : List Move :=
  [.start (.append ⟨Archive.orders, [⟨"placed", [1]⟩], none⟩ .start) false] ++
    List.replicate 12 (.step 1 {}) ++
    [.start (.remove Archive.orders (.retiring .start)) false] ++
    List.replicate 4 (.step 2 {}) ++ List.replicate 5 (.step 1 {}) ++
    List.replicate 2 (.step 2 {}) ++ List.replicate 6 (.step 0 {}) ++
    List.replicate 5 (.step 2 {}) ++
    [.start (.append ⟨Archive.orders, [⟨"again", [2]⟩], some 0⟩ .start) false] ++
    List.replicate 17 (.step 3 {})

theorem removesForGood_of_racing :
    ∃ m, (opening {} Archive.blank 0).play racing = some m ∧ m.log.length = 9 ∧
      (Log.history Archive.orders m.log).map (·.type) = ["again"] ∧
      Log.Fair m.log ∧ m.RemovesForGood := by
  have hplayed : ((opening {} Archive.blank 0).play racing).any (fun m =>
      m.log.length == 9 && (Log.history Archive.orders m.log).map (·.type) == ["again"] &&
        m.log.all Log.isFair) = true := by
    decide +kernel
  obtain ⟨m, hrun, hm⟩ := (Option.any_eq_true _ _).mp hplayed
  simp only [Bool.and_eq_true, beq_iff_eq] at hm
  obtain ⟨⟨hlength, hhistory⟩, hfair⟩ := hm
  have hfair' : Log.Fair m.log := List.all_eq_true.mp hfair
  exact ⟨m, hrun, hlength, hhistory, hfair',
    removesForGood_of_play Archive.vacant_blank hrun hfair'⟩

end Moment

end StreamStore
