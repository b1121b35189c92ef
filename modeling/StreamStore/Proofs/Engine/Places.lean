import StreamStore.Proofs.Engine.Dropping

/-!
# Who stands in which line

Whoever goes by standing in the line of a stream or of an entry is found in it, at all times of a
run; that only such tasks are found there is part of the order of an engine.  The lines for the
files of a stream are joined by removals and by the worker alone, and hold just those who are about
to touch the files or have just done so.
-/

namespace StreamStore

/-! ## Lines of streams and of entries -/

/-- Every task stands in the lines in which its stance says it does. -/
structure Engine.Complete (e : Engine) (st : TaskId → Stance) : Prop where
  lines : ∀ t s, (st t).line? = some s → t ∈ e.pool.lines.line s
  locks : ∀ t n access, (st t).place? = some (n, access) → (t, access) ∈ (e.entry n).lock.line

namespace Engine.Complete

variable {e e' : Engine} {st : TaskId → Stance} {t u : TaskId} {s : StreamId} {n : EntryId}
  {σ : Stance} {deeds : List Happening}

theorem of_archive (settings : Settings) (archive : Archive) (clock : Int64) :
    (Engine.ofArchive settings archive clock).Complete
      (Function.update (fun _ => Stance.free) 0 .receiving) := by
  constructor
  · intro t s hline
    cases (Stance.eq_some_of_update Stance.line? rfl hline).1
  · intro t n access hplace
    cases (Stance.eq_some_of_update Stance.place? rfl hplace).1

theorem lines_change (h : e.Complete st) (hchange : e.LineMove t (st t) e' σ)
    (hline : (Function.update st t σ u).line? = some s) : u ∈ e'.pool.lines.line s := by
  by_cases hu : u = t
  · subst hu
    rw [Function.update_self] at hline
    cases hchange with
    | stay hlines hsame hguard =>
        rw [hlines]
        exact h.lines u s (hsame ▸ hline)
    | join s' hlines hbefore hafter =>
        rw [hafter] at hline
        cases hline
        rw [hlines, LockTable.line_join, if_pos rfl]
        exact List.mem_append_right _ List.mem_cons_self
    | leave s' hlines hbefore hafter =>
        rw [hafter] at hline
        cases hline
  · rw [Function.update_of_ne hu] at hline
    have hmem := h.lines u s hline
    cases hchange with
    | stay hlines hsame hguard =>
        rw [hlines]
        exact hmem
    | join s' hlines hbefore hafter =>
        rw [hlines, LockTable.line_join]
        split
        next hs =>
          rw [← hs]
          exact List.mem_append_left _ hmem
        · exact hmem
    | leave s' hlines hbefore hafter =>
        rw [hlines, LockTable.line_leave]
        split
        next hs =>
          rw [← hs]
          exact (List.mem_erase_of_ne hu).mpr hmem
        · exact hmem

theorem locks_change (h : e.Complete st) (hinOrder : e.InOrder st)
    (hchange : e.LockMove t (st t) e' σ) {access : Access}
    (hplace : (Function.update st t σ u).place? = some (n, access)) :
    (u, access) ∈ (e'.entry n).lock.line := by
  by_cases hu : u = t
  · subst hu
    rw [Function.update_self] at hplace
    cases hchange with
    | stay hlocks hsame hlock =>
        rw [hlocks n]
        exact h.locks u n access (hsame ▸ hplace)
    | fresh hlocks hbefore hafter =>
        rw [hafter] at hplace
        cases hplace
    | join n' access' hlocks hbefore hafter hlock =>
        rw [hafter] at hplace
        cases hplace
        rw [hlocks, if_pos rfl]
        exact List.mem_append_right _ List.mem_cons_self
    | leave n' hlocks hbefore hafter =>
        rw [hafter] at hplace
        cases hplace
  · rw [Function.update_of_ne hu] at hplace
    have hmem := h.locks u n access hplace
    cases hchange with
    | stay hlocks hsame hlock =>
        rw [hlocks n]
        exact hmem
    | fresh hlocks hbefore hafter =>
        obtain ⟨s, hhand⟩ := Stance.inHand?_of_place? hplace
        rw [hlocks n, if_neg (Nat.ne_of_lt (hinOrder.lt_of_inHand? hhand))]
        exact hmem
    | join n' access' hlocks hbefore hafter hlock =>
        rw [hlocks n]
        split
        next hn =>
          rw [← hn]
          exact List.mem_append_left _ hmem
        · exact hmem
    | leave n' hlocks hbefore hafter =>
        rw [hlocks n]
        split
        next hn =>
          rw [← hn]
          exact (List.mem_eraseP_of_neg (by simp [hu])).mpr hmem
        · exact hmem

/-- Every step leaves all tasks in the lines in which they stand. -/
theorem change (h : e.Complete st) (hinOrder : e.InOrder st)
    (hchange : Change e t (st t) deeds e' σ) : e'.Complete (Function.update st t σ) where
  lines _ _ hline := h.lines_change hchange.lineMove hline
  locks _ _ _ hplace := h.locks_change hinOrder hchange.lockMove hplace

theorem abandon (h : e.Complete st) (hinOrder : e.InOrder st) (t : TaskId) :
    (e.abandon t).Complete (Function.update st t .free) := by
  constructor
  · intro u s hline
    obtain ⟨hbefore, hu⟩ := Stance.eq_some_of_update Stance.line? rfl hline
    have hleave : (e.abandon t).pool.lines.line s = (e.pool.lines.line s).erase t :=
      LockTable.line_leaveAll (hinOrder.lines s).nodup t
    rw [hleave]
    exact (List.mem_erase_of_ne hu).mpr (h.lines u s hbefore)
  · intro u n access hplace
    obtain ⟨hbefore, hu⟩ := Stance.eq_some_of_update Stance.place? rfl hplace
    rw [(e.entry_abandon t n).2]
    exact (List.mem_eraseP_of_neg (by simp [hu])).mpr (h.locks u n access hbefore)

end Engine.Complete

/-! ## Lines for files -/

/-- The stream in the line for whose files a task stands. -/
def Work.files? : Work → Option StreamId
  | remove s .inExtentLine => some s
  | remove s (.unlocking _) => some s
  | writeBack ⟨_, .writing b .inLine, _⟩ => some b.stream
  | writeBack ⟨_, .writing b (.unlocking _), _⟩ => some b.stream
  | _ => none

theorem Work.files?_of_isRequest {work : Work} (h : work.isRequest = true) :
    work.files? = none := by
  unfold isRequest at h
  split at h <;> first | rfl | cases h

/-- What a step of one task does to the lines for files. -/
inductive Engine.FilesMove (e : Engine) (t : TaskId) (files : Option StreamId) (e' : Engine)
    (files' : Option StreamId) : Prop
  | stay (hextents : e'.extents = e.extents) (hfiles : files' = files)
  | join (s : StreamId) (hextents : e'.extents = e.extents.join s t) (hbefore : files = none)
      (hafter : files' = some s)
  | leave (s : StreamId) (hextents : e'.extents = e.extents.leave s t) (hbefore : files = some s)
      (hafter : files' = none)

section Steps

variable {e e' : Engine} {s : StreamId} {t : TaskId} {cancelled : Bool} {w : Weather}

theorem Appending.extents_step {r : AppendRequest} {phase phase' : Appending}
    (h : phase.step e r t cancelled w = some (e', phase')) : e'.extents = e.extents := by
  cases phase with
  | finding residence =>
      rw [step] at h
      split at h
      · cases h
        rfl
      · cases h
        rfl
      · obtain ⟨⟨e₁, residence₁⟩, hstep, heq⟩ := Option.map_eq_some_iff.mp h
        cases heq
        exact (Residence.bypasses_step hstep).extents_eq
  | inLine n =>
      simp only [step] at h
      split at h
      · cases h
        rfl
      · split at h <;> cases h
        rfl
  | current n =>
      simp only [step, Option.some.injEq, handOff] at h
      split at h
      · cases h
        rfl
      · split at h <;> cases h <;> rfl
  | done result => cases h
  | _ =>
      cases h
      rfl

theorem Removing.filesMove_step {phase phase' : Removing}
    (h : phase.step e s t w = some (e', phase')) :
    e.FilesMove t (Work.remove s phase).files? e' (Work.remove s phase').files? := by
  cases phase with
  | retiring phase =>
      cases phase with
      | retired =>
          rw [step] at h
          split at h <;> cases h
          exact .stay rfl rfl
      | _ =>
          simp only [step] at h
          obtain ⟨⟨e₁, phase₁⟩, hstep, heq⟩ := Option.map_eq_some_iff.mp h
          cases heq
          exact .stay (Retiring.bypasses_step hstep).extents_eq rfl
  | quiet =>
      cases h
      exact .join s rfl rfl rfl
  | inExtentLine =>
      simp only [step] at h
      split at h <;> cases h
      exact .stay rfl rfl
  | unlocking result =>
      cases h
      exact .leave s rfl rfl rfl
  | leaving result =>
      cases h
      exact .stay rfl rfl
  | done result => cases h

theorem Worker.filesMove_step {k k' : Worker} (h : k.step e t w = some (e', k')) :
    e.FilesMove t (Work.writeBack k).files? e' (Work.writeBack k').files? := by
  obtain ⟨source, phase, report⟩ := k
  cases phase with
  | receiving =>
      simp only [step, receive] at h
      split at h
      · cases h
        exact .stay rfl rfl
      · cases h
        exact .stay rfl rfl
      · split at h <;> cases h <;> exact .stay rfl rfl
  | writing b phase =>
      cases phase with
      | start =>
          simp only [step, Persisting.result?, Persisting.step] at h
          split at h <;> cases h
          · exact .stay rfl rfl
          · exact .join b.stream rfl rfl rfl
      | inLine =>
          simp only [step, Persisting.result?, Persisting.step] at h
          split at h <;> cases h
          exact .stay rfl rfl
      | unlocking result =>
          cases h
          exact .leave b.stream rfl rfl rfl
      | done result =>
          cases h
          exact .stay rfl rfl
  | written b =>
      cases h
      exact .stay rfl rfl
  | finished => cases h

/-- Only removals and the worker get in line for files. -/
theorem Work.filesMove_step {work work' : Work} (hadmissible : work.Admissible)
    (h : work.step e t cancelled w = some (e', work')) :
    e.FilesMove t work.files? e' work'.files? := by
  cases work with
  | append r phase =>
      obtain ⟨⟨e₁, phase₁⟩, hstep, heq⟩ := Option.map_eq_some_iff.mp h
      cases heq
      exact .stay (Appending.extents_step hstep) rfl
  | page r phase =>
      obtain ⟨⟨e₁, phase₁⟩, hstep, heq⟩ := Option.map_eq_some_iff.mp h
      cases heq
      exact .stay (Paging.bypasses_step hstep).extents_eq rfl
  | measure s phase =>
      obtain ⟨⟨e₁, phase₁⟩, hstep, heq⟩ := Option.map_eq_some_iff.mp h
      cases heq
      exact .stay (Measuring.bypasses_step hstep).extents_eq rfl
  | peek s phase =>
      obtain ⟨⟨e₁, phase₁⟩, hstep, heq⟩ := Option.map_eq_some_iff.mp h
      cases heq
      exact .stay (Peeking.bypasses_step hstep).extents_eq rfl
  | count s phase =>
      obtain ⟨⟨e₁, phase₁⟩, hstep, heq⟩ := Option.map_eq_some_iff.mp h
      cases heq
      exact .stay (Counting.bypasses_step hstep).extents_eq rfl
  | list filter phase =>
      obtain ⟨⟨e₁, phase₁⟩, hstep, heq⟩ := Option.map_eq_some_iff.mp h
      cases heq
      exact .stay (Listing.bypasses_step hstep).extents_eq rfl
  | remove s phase =>
      obtain ⟨⟨e₁, phase₁⟩, hstep, heq⟩ := Option.map_eq_some_iff.mp h
      cases heq
      exact Removing.filesMove_step hstep
  | flush isDone =>
      rw [step] at h
      split at h <;> cases h
      exact .stay rfl rfl
  | writeBack k =>
      obtain ⟨⟨e₁, k₁⟩, hstep, heq⟩ := Option.map_eq_some_iff.mp h
      cases heq
      exact Worker.filesMove_step hstep
  | persist s events phase => exact hadmissible.elim
  | hold n access joined => exact hadmissible.elim
  | retire s phase => exact hadmissible.elim

end Steps

/-- In the lines for files just those stand who are there by what they do, none of them twice. -/
structure Engine.Files (e : Engine) (files : TaskId → Option StreamId) : Prop where
  nodup : ∀ s, (e.extents.line s).Nodup
  mem_iff : ∀ s t, t ∈ e.extents.line s ↔ files t = some s

namespace Engine.Files

variable {e e' : Engine} {files : TaskId → Option StreamId} {t : TaskId}
  {files' : Option StreamId}

/-- Nobody is in line for files at the start. -/
theorem of_archive (settings : Settings) (archive : Archive) (clock : Int64) :
    (Engine.ofArchive settings archive clock).Files fun _ => none := by
  constructor
  · intro s
    exact List.nodup_nil
  · intro s t
    constructor
    · intro hmem
      cases hmem
    · intro hfiles
      cases hfiles

theorem move (h : e.Files files) (hmove : e.FilesMove t (files t) e' files') :
    e'.Files (Function.update files t files') := by
  cases hmove with
  | stay hextents hfiles =>
      rw [hfiles, Function.update_eq_self]
      exact ⟨hextents ▸ h.nodup, hextents ▸ h.mem_iff⟩
  | join s hextents hbefore hafter =>
      have hnot : t ∉ e.extents.line s := by
        rw [h.mem_iff, hbefore]
        nofun
      constructor
      · intro s'
        rw [hextents, LockTable.line_join]
        split
        · refine List.nodup_append.mpr ⟨h.nodup s, List.nodup_singleton t, ?_⟩
          rintro u hu _ hv rfl
          exact hnot (List.mem_singleton.mp hv ▸ hu)
        · exact h.nodup s'
      · intro s' u
        rw [hextents, LockTable.line_join]
        by_cases hu : u = t
        · subst hu
          rw [Function.update_self, hafter, Option.some.injEq]
          split
          next hs => simp [hs]
          next hs =>
            rw [h.mem_iff, hbefore]
            simp [Ne.symm hs]
        · rw [Function.update_of_ne hu, ← h.mem_iff]
          split
          next hs => simp [hs, hu]
          · rfl
  | leave s hextents hbefore hafter =>
      constructor
      · intro s'
        rw [hextents, LockTable.line_leave]
        split
        · exact (h.nodup s).sublist List.erase_sublist
        · exact h.nodup s'
      · intro s' u
        rw [hextents, LockTable.line_leave]
        by_cases hu : u = t
        · subst hu
          rw [Function.update_self, hafter]
          split
          · exact iff_of_false (h.nodup s).not_mem_erase nofun
          next hs =>
            rw [h.mem_iff, hbefore]
            simp [Ne.symm hs]
        · rw [Function.update_of_ne hu, ← h.mem_iff]
          split
          next hs => rw [hs, List.mem_erase_of_ne hu]
          · rfl

theorem abandon (h : e.Files files) (t : TaskId) :
    (e.abandon t).Files (Function.update files t none) := by
  have hline : ∀ s, (e.abandon t).extents.line s = (e.extents.line s).erase t :=
    fun s => LockTable.line_leaveAll (h.nodup s) t
  constructor
  · intro s
    rw [hline]
    exact (h.nodup s).sublist List.erase_sublist
  · intro s u
    rw [hline]
    by_cases hu : u = t
    · subst hu
      rw [Function.update_self]
      exact iff_of_false (h.nodup s).not_mem_erase nofun
    · rw [Function.update_of_ne hu, List.mem_erase_of_ne hu, h.mem_iff]

end Engine.Files

/-! ## Runs -/

namespace Moment

variable {settings : Settings} {archive : Archive} {clock : Int64} {incidents : List Incident}
  {m m' : Moment} {t : TaskId}

/-- The stream in the line for whose files each task stands. -/
def files? (m : Moment) (t : TaskId) : Option StreamId :=
  (m.system.task? t).bind fun task => task.work.files?

theorem files?_eq {task : Task} (htask : m.system.task? t = some task) :
    m.files? t = task.work.files? := by
  rw [files?, htask]
  rfl

theorem complete_of_meet (horderly : m.Orderly) (hsettled : m.system.engine.Settled m.stances)
    (h : m.system.engine.Complete m.stances) {incident : Incident}
    (hmeet : m.meet incident = some m') : m'.system.engine.Complete m'.stances := by
  cases incident with
  | move mv =>
      obtain ⟨-, t, deeds, σ, hfollows⟩ := horderly.move hmeet
      rw [hfollows.stances_eq]
      exact h.change hsettled.inOrder hfollows.change
  | drop t =>
      obtain ⟨task, -, -, rfl⟩ := meet_drop_eq_some hmeet
      rw [stances_abandon]
      exact h.abandon hsettled.inOrder t

theorem complete_of_undergo (hrun : (opening settings archive clock).undergo incidents = some m) :
    m.system.engine.Complete m.stances := by
  refine undergo_induction (P := fun m => m.system.engine.Complete m.stances) hrun ?_ ?_
  · rw [stances_opening]
    exact .of_archive settings archive clock
  · intro before a incident b hbefore hcomplete hmeet
    exact complete_of_meet (orderly_of_undergo hbefore) (settled_of_undergo hbefore) hcomplete hmeet

/-- Work that clients ask for stands in no line for files before its first step. -/
theorem Orderly.files?_start (h : m.Orderly) {work : Work} (hrequest : work.isRequest = true)
    (cancelled : Bool) (log : List Happening) :
    files? ⟨(m.system.start work cancelled).2, log⟩ = m.files? := by
  have hfresh := h.fresh _ Nat.le.refl
  funext t
  rw [files?, System.task?_start hfresh]
  split
  next ht =>
    rw [ht, files?, hfresh]
    exact Work.files?_of_isRequest hrequest
  · rfl

theorem files?_record {task : Task} (htask : m.system.task? t = some task) (engine : Engine)
    (work : Work) (log : List Happening) :
    files? ⟨{ m.system with engine }.record t work, log⟩ =
      Function.update m.files? t work.files? := by
  funext u
  rw [files?]
  by_cases hu : u = t
  · subst hu
    rw [System.task?_record_self (y := { m.system with engine }) htask, Function.update_self]
    rfl
  · rw [System.task?_record_of_ne _ hu, Function.update_of_ne hu]
    rfl

theorem files?_cancel (m : Moment) (t : TaskId) :
    files? { m with system := m.system.cancel t } = m.files? := by
  funext u
  rw [files?, System.task?_cancel, files?, Option.bind_map]
  congr 1
  funext task
  rw [Function.comp_apply]
  split <;> rfl

theorem files?_abandon (m : Moment) (t : TaskId) :
    files? { m with system := m.system.abandon t } = Function.update m.files? t none := by
  funext u
  have htask : (m.system.abandon t).task? u = if u = t then none else m.system.task? u :=
    System.task?_forget _ t u
  rw [files?]
  simp only [htask]
  by_cases hu : u = t
  · subst hu
    rw [Function.update_self, if_pos rfl]
    rfl
  · rw [Function.update_of_ne hu, if_neg hu]
    rfl

theorem files_of_meet (horderly : m.Orderly) (h : m.system.engine.Files m.files?)
    {incident : Incident} (hmeet : m.meet incident = some m') :
    m'.system.engine.Files m'.files? := by
  cases incident with
  | move mv =>
      cases mv with
      | start work cancelled =>
          rw [Moment.meet, Moment.move] at hmeet
          split at hmeet <;> cases hmeet
          next hrequest =>
            rw [horderly.files?_start hrequest]
            exact h
      | step t weather =>
          obtain ⟨task, e', work', htask, hstep, rfl⟩ := move_step_eq_some hmeet
          rw [files?_record htask]
          apply h.move
          rw [files?_eq htask]
          exact Work.filesMove_step (horderly.admissible t task htask) hstep
      | cancel t =>
          cases hmeet
          rw [files?_cancel]
          exact ⟨h.nodup, h.mem_iff⟩
      | evict count =>
          cases hmeet
          exact ⟨h.nodup, h.mem_iff⟩
      | tick now =>
          cases hmeet
          exact ⟨h.nodup, h.mem_iff⟩
      | close =>
          cases hmeet
          exact ⟨h.nodup, h.mem_iff⟩
  | drop t =>
      obtain ⟨task, -, -, rfl⟩ := meet_drop_eq_some hmeet
      rw [files?_abandon]
      exact h.abandon t

theorem files?_opening (settings : Settings) (archive : Archive) (clock : Int64) :
    (opening settings archive clock).files? = fun _ => none := by
  funext t
  rw [files?, opening, System.task?_start rfl]
  split <;> rfl

theorem files_of_undergo (hrun : (opening settings archive clock).undergo incidents = some m) :
    m.system.engine.Files m.files? := by
  refine undergo_induction (P := fun m => m.system.engine.Files m.files?) hrun ?_ ?_
  · rw [files?_opening]
    exact .of_archive settings archive clock
  · intro before a incident b hbefore hfiles hmeet
    exact files_of_meet (orderly_of_undergo hbefore) hfiles hmeet

end Moment

end StreamStore
