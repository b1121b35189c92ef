import StreamStore.Proofs.Engine.Lines
import StreamStore.Proofs.Storage.Commands
import StreamStore.Proofs.Storage.Positions

/-!
# Page by page

A task that needs the events of an idle stream reads them from disk page by page, and every page
opens the files anew.  Whatever the files hold, the pages come to what one read of everything gives:
the same events, or its failure.  The size of the pages makes no difference, also where the last
full page ends with the last event.
-/

namespace StreamStore

/-! ## Reads that go on from one another -/

section Splitting

variable {ε α : Type} {f : Nat → Except ε α} {xs : List α}

theorem length_of_mapM_eq_ok {is : List Nat} (h : is.mapM f = .ok xs) : xs.length = is.length := by
  induction is generalizing xs with
  | nil =>
      cases h
      rfl
  | cons i is ih =>
      rw [List.mapM_cons] at h
      cases hfirst : f i with
      | error fault =>
          rw [hfirst] at h
          cases h
      | ok x =>
          rw [hfirst] at h
          cases hrest : is.mapM f with
          | error fault =>
              rw [hrest] at h
              cases h
          | ok ys =>
              rw [hrest] at h
              cases h
              rw [List.length_cons, List.length_cons, ih hrest]

/-- Behind items that are there come those of the positions that follow, or their failure. -/
theorem mapM_range'_add {i n : Nat} (h : (List.range' i n).mapM f = .ok xs) (m : Nat) :
    (List.range' i (n + m)).mapM f = ((List.range' (i + n) m).mapM f).map (xs ++ ·) := by
  rw [← List.range'_append_1, List.mapM_append, h]
  cases (List.range' (i + n) m).mapM f <;> rfl

theorem mapM_range'_add_of_error {fault : ε} {i n : Nat}
    (h : (List.range' i n).mapM f = .error fault) (m : Nat) :
    (List.range' i (n + m)).mapM f = .error fault := by
  rw [← List.range'_append_1, List.mapM_append, h]
  rfl

end Splitting

theorem positions_none (total : Nat) : positions none none total = List.range' 0 total := rfl

/-- A page is full, or it ends where the records end. -/
theorem exists_positions_page {k size total : Nat} (hk : k ≤ total) :
    ∃ m, positions (some k) (some size) total = List.range' k m ∧ k + m ≤ total ∧
      (m < size → k + m = total) := by
  refine ⟨min (k + size) total - k, rfl, ?_⟩
  omega

/-! ## Hydration -/

namespace Residence

/-- What reading a stream's events from disk came to. -/
def hydrated? : Residence → Option (Except Refusal (List Event))
  | loaded events => some (.ok events)
  | asking (.leaving (.error refusal)) => some (.error refusal)
  | _ => none

/-- The steps of a task that is not cancelled, under some weather. -/
def play (s : StreamId) (t : TaskId) (start : Engine × Residence) (weathers : List Weather) :
    Option (Engine × Residence) :=
  weathers.foldlM (fun (e, r) w => r.step e s t false w) start

/-- Whatever the weather, a task comes to an outcome after a number of steps and not before, and
leaves the engine as it is. -/
def EndsWith (e : Engine) (s : StreamId) (t : TaskId) (r : Residence)
    (outcome : Except Refusal (List Event)) : Prop :=
  ∃ n, ∀ weathers : List Weather,
    (weathers.length < n → ∃ r', play s t (e, r) weathers = some (e, r') ∧ r'.hydrated? = none) ∧
      (weathers.length = n →
        ∃ r', play s t (e, r) weathers = some (e, r') ∧ r'.hydrated? = some outcome)

variable {e : Engine} {s : StreamId} {t : TaskId} {r r₁ : Residence}
  {outcome outcome' : Except Refusal (List Event)} {found : List Event}

theorem EndsWith.of_hydrated (h : r.hydrated? = some outcome) : EndsWith e s t r outcome := by
  refine ⟨0, fun weathers => ⟨fun hlt => absurd hlt (Nat.not_lt_zero _), fun hzero => ?_⟩⟩
  rw [List.length_eq_zero_iff.mp hzero]
  exact ⟨r, rfl, h⟩

theorem EndsWith.step (hstep : ∀ w, r.step e s t false w = some (e, r₁))
    (hnot : r.hydrated? = none) (h : EndsWith e s t r₁ outcome) : EndsWith e s t r outcome := by
  obtain ⟨n, hn⟩ := h
  refine ⟨n + 1, fun weathers => ?_⟩
  cases weathers with
  | nil => exact ⟨fun _ => ⟨r, rfl, hnot⟩, fun hlength => absurd hlength (Nat.succ_ne_zero n).symm⟩
  | cons w weathers =>
      have hplay : play s t (e, r) (w :: weathers) = play s t (e, r₁) weathers := by
        have hfirst := hstep w
        rw [play, List.foldlM_cons]
        simp only [hfirst]
        rfl
      rw [hplay, List.length_cons, Nat.succ_lt_succ_iff, Nat.succ_inj]
      exact hn weathers

/-- There is one outcome. -/
theorem EndsWith.unique (h : EndsWith e s t r outcome) (h' : EndsWith e s t r outcome') :
    outcome = outcome' := by
  obtain ⟨n, hn⟩ := h
  obtain ⟨n', hn'⟩ := h'
  have hplayed (k : Nat) : (List.replicate k ({} : Weather)).length = k := List.length_replicate
  obtain ⟨r₁, hplay, hcame⟩ := (hn (List.replicate n {})).2 (hplayed n)
  obtain ⟨r₂, hplay', hcame'⟩ := (hn' (List.replicate n' {})).2 (hplayed n')
  rcases Nat.lt_trichotomy n n' with hlt | rfl | hlt
  · obtain ⟨r₃, hearly, hnot⟩ := (hn' (List.replicate n {})).1 ((hplayed n).trans_lt hlt)
    cases hplay.symm.trans hearly
    cases hcame.symm.trans hnot
  · cases hplay.symm.trans hplay'
    exact Option.some.inj (hcame.symm.trans hcame')
  · obtain ⟨r₃, hearly, hnot⟩ := (hn (List.replicate n' {})).1 ((hplayed n').trans_lt hlt)
    cases hplay'.symm.trans hearly
    cases hcame'.symm.trans hnot

/-- With the events of some positions read, the task comes to those of all. -/
theorem endsWith_of_loading {total : Nat} {eventAt : Nat → Except StorageFault Event}
    (hread : ∀ skip take,
      e.archive.readAll s skip take false = (positions skip take total).mapM eventAt)
    {k : Nat} (hk : k ≤ total) (hfound : (List.range' 0 k).mapM eventAt = .ok found) :
    EndsWith e s t (loading found)
      ((e.archive.readAll s none none false).mapError Refusal.ofStorage) := by
  generalize hleft : total - k = left
  induction left using Nat.strongRecOn generalizing k found with
  | ind left ih =>
      let size := max e.settings.hydrationPageSize 1
      have hsize : 1 ≤ size := Nat.le_max_right _ 1
      obtain ⟨m, hpage, hwithin, hlast⟩ := @exists_positions_page k size total hk
      have hlength : found.length = k := by
        rw [length_of_mapM_eq_ok hfound, List.length_range']
      have hnext := hread (some found.length) (some size)
      rw [hlength, hpage] at hnext
      cases hresult : (List.range' k m).mapM eventAt with
      | error fault =>
          have hload (w : Weather) : (loading found).step e s t false w =
              some (e, fail (Refusal.ofStorage fault)) := by
            rw [step, loadPage, hlength, hnext, hresult]
          have hall : e.archive.readAll s none none false =
              ((List.range' k (m + (total - (k + m)))).mapM eventAt).map (found ++ ·) := by
            have hsplit := mapM_range'_add hfound (m + (total - (k + m)))
            rw [Nat.zero_add, show k + (m + (total - (k + m))) = total by omega] at hsplit
            rw [hread, positions_none, hsplit]
          refine .step hload rfl ?_
          rw [hall, mapM_range'_add_of_error hresult]
          exact .of_hydrated rfl
      | ok page =>
          have hm : page.length = m := by
            rw [length_of_mapM_eq_ok hresult, List.length_range']
          have hfound' : (List.range' 0 (k + m)).mapM eventAt = .ok (found ++ page) := by
            rw [mapM_range'_add hfound m, Nat.zero_add, hresult]
            rfl
          have hload (w : Weather) : (loading found).step e s t false w =
              some (e, if page.length < size then loaded (found ++ page)
                else loading (found ++ page)) := by
            rw [step, loadPage, hlength, hnext, hresult]
          refine .step hload rfl ?_
          rw [hm]
          split
          next hshort =>
            rw [hread, positions_none, ← hlast hshort, hfound']
            exact .of_hydrated rfl
          next hnotShort => exact ih _ (by omega) hwithin hfound' rfl

/-- A task that finds no write to the stream on its way comes to what one read of everything
gives. -/
theorem endsWith_readAll (hidle : e.backlog.isIdle s = true) :
    EndsWith e s t (asking .finding)
      ((e.archive.readAll s none none false).mapError Refusal.ofStorage) := by
  have hopen (w : Weather) : (asking .finding).step e s t false w = some (e, loading []) := by
    simp only [step, hidle]
    rfl
  refine .step hopen rfl ?_
  rcases e.archive.readAll_cases s with ⟨fault, hfails⟩ | ⟨total, eventAt, hread⟩
  · have hload (w : Weather) : (loading []).step e s t false w =
        some (e, fail (Refusal.ofStorage fault)) := by
      rw [step, loadPage, hfails]
    refine .step hload rfl ?_
    rw [hfails]
    exact .of_hydrated rfl
  · exact endsWith_of_loading hread (Nat.zero_le total) rfl

end Residence

def Engine.withPageSize (e : Engine) (size : Nat) : Engine :=
  { e with settings := { e.settings with hydrationPageSize := size } }

/-- Making a stream's events resident is one read of everything, for every size of the pages. -/
structure Engine.HydratesAsRead (e : Engine) (s : StreamId) (t : TaskId) : Prop where
  ends : ∀ size, ∃ outcome,
    Residence.EndsWith (e.withPageSize size) s t (.asking .finding) outcome
  ok_iff : ∀ size events,
    Residence.EndsWith (e.withPageSize size) s t (.asking .finding) (.ok events) ↔
      e.archive.readAll s none none false = .ok events
  error_iff : ∀ size refusal,
    Residence.EndsWith (e.withPageSize size) s t (.asking .finding) (.error refusal) ↔
      ∃ fault, e.archive.readAll s none none false = .error fault ∧
        refusal = Refusal.ofStorage fault
  /-- The events that were read become those of a new entry. -/
  entry : ∀ size events w, ∃ e' n,
    (Residence.loaded events).step (e.withPageSize size) s t false w =
        some (e', .asking (.leaving (.ok n))) ∧
      e'.entry n = { events }

namespace Engine

variable {e : Engine} {s : StreamId}

theorem hydratesAsRead_of_isIdle (hidle : e.backlog.isIdle s = true) (t : TaskId) :
    e.HydratesAsRead s t := by
  have hends (size : Nat) : Residence.EndsWith (e.withPageSize size) s t (.asking .finding)
      ((e.archive.readAll s none none false).mapError Refusal.ofStorage) :=
    Residence.endsWith_readAll hidle
  constructor
  · intro size
    exact ⟨_, hends size⟩
  · intro size events
    constructor
    · intro hevents
      have heq := (hends size).unique hevents
      cases hread : e.archive.readAll s none none false with
      | error fault =>
          rw [hread] at heq
          cases heq
      | ok found =>
          rw [hread] at heq
          cases heq
          rfl
    · intro hread
      have hevents := hends size
      rw [hread] at hevents
      exact hevents
  · intro size refusal
    constructor
    · intro hrefusal
      have heq := (hends size).unique hrefusal
      cases hread : e.archive.readAll s none none false with
      | error fault =>
          rw [hread] at heq
          cases heq
          exact ⟨fault, rfl, rfl⟩
      | ok found =>
          rw [hread] at heq
          cases heq
    · rintro ⟨fault, hread, rfl⟩
      have hrefusal := hends size
      rw [hread] at hrefusal
      exact hrefusal
  · intro size events w
    refine ⟨_, _, rfl, ?_⟩
    exact (entry_newEntry (e.withPageSize size) events _).trans (if_pos rfl)

/-- Two events in pages of one: the second page is full and the third is empty. -/
theorem hydratesAsRead_of_full_pages :
    ∃ e : Engine, e.backlog.isIdle Archive.orders = true ∧
      Residence.EndsWith (e.withPageSize 1) Archive.orders 0 (.asking .finding)
        (.ok [Archive.placed, Archive.paid]) ∧
      e.HydratesAsRead Archive.orders 0 := by
  let e := ofArchive {}
    (Archive.blank.append Archive.orders [Archive.placed, Archive.paid] none).2 0
  have hidle : e.backlog.isIdle Archive.orders = true := rfl
  have hread : e.archive.readAll Archive.orders none none false =
      .ok [Archive.placed, Archive.paid] := by
    decide +kernel
  have hhydrates := hydratesAsRead_of_isIdle hidle 0
  exact ⟨e, hidle, (hhydrates.ok_iff 1 _).mpr hread, hhydrates⟩

end Engine

end StreamStore
