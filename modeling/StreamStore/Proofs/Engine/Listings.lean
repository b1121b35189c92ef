import StreamStore.Proofs.Cache.Actions
import StreamStore.Proofs.Engine.Counts
import StreamStore.Proofs.Storage.Enumeration

/-!
# The catalogue

On a still engine the catalogue has the streams that a count knows, each once, by type
and then by key, with the counts they have.  Names that are read as a stream's but are
not those of its files, and streams that are listed more than once, make no difference:
every stream is counted before it is taken up.  The streams on disk by themselves are
listed by key and then by type, which is another order where keys do not follow types.
-/

namespace StreamStore

/-! ## Going through the streams -/

namespace Listing

variable {e : Engine} {filter : Option StreamType} {found infos : List StreamSummary}

def procedure (filter : Option StreamType) (t : TaskId) : Procedure Listing :=
  fun _ e phase => phase.step e filter t

/-- The summaries of streams behind those that were found before, or the first failure. -/
def summed (e : Engine) (found : List StreamSummary) :
    List StreamId → Except Refusal (List StreamSummary)
  | [] => .ok found
  | s :: rest =>
    match e.countOf s with
    | .error refusal => .error refusal
    | .ok none => summed e found rest
    | .ok (some count) => summed e (found ++ [⟨s, count⟩]) rest

theorem summed_congr {e' : Engine} (h : e.SameContent e') (ss : List StreamId) :
    summed e' found ss = summed e found ss := by
  induction ss generalizing found with
  | nil => rfl
  | cons s rest ih =>
      rw [summed, summed, h.countOf_eq]
      split
      · rfl
      · exact ih
      · exact ih

/-- Stream by stream a catalogue comes to the summaries of all. -/
theorem reaches_summed (hstill : e.Still) (filter : Option StreamType) (t : TaskId)
    (found : List StreamSummary) (ss : List StreamId) :
    ∃ e', (procedure filter t).Reaches (e, next found ss) (e', done (summed e found ss)) := by
  induction ss generalizing e found with
  | nil => exact ⟨e, .refl _ _⟩
  | cons s rest ih =>
      obtain ⟨e₁, hcount, hsame⟩ := Counting.reaches_done (s := s) fun n _ => hstill.isReadable n t
      have hreach : (procedure filter t).Reaches (e, next found (s :: rest))
          (e₁, counting s (.done (e.countOf s)) rest found) := by
        refine hcount.map (f := (counting s · rest found)) fun w e a e' a' hstep => ?_
        have hstep' : a.step e s t = some (e', a') := hstep
        rw [procedure, step, Counting.result?_of_step hstep', hstep']
        rfl
      rw [summed]
      cases hresult : e.countOf s with
      | error refusal =>
          rw [hresult] at hreach
          exact ⟨e₁, hreach.trans (.of_step fun _ => rfl)⟩
      | ok count =>
          rw [hresult] at hreach
          have hstill' := hsame.still hstill
          cases count with
          | none =>
              obtain ⟨e', hrest⟩ := ih hstill' found
              rw [summed_congr hsame] at hrest
              exact ⟨e', hreach.trans (.step (fun _ => rfl) hrest)⟩
          | some count =>
              obtain ⟨e', hrest⟩ := ih hstill' (found ++ [⟨s, count⟩])
              rw [summed_congr hsame] at hrest
              exact ⟨e', hreach.trans (.step (fun _ => rfl) hrest)⟩

/-- The summary of a stream that is counted. -/
def summary? (e : Engine) (s : StreamId) : Option StreamSummary :=
  match e.countOf s with
  | .ok (some count) => some ⟨s, count⟩
  | _ => none

theorem summary?_eq_some_iff {s : StreamId} {info : StreamSummary} :
    summary? e s = some info ↔
      info.stream = s ∧ e.countOf s = .ok (some info.eventCount) := by
  obtain ⟨s', count⟩ := info
  rw [summary?]
  split
  next count' hcount => simp [hcount, eq_comm]
  next hnot =>
    refine iff_of_false nofun ?_
    rintro ⟨-, hcount⟩
    exact hnot _ hcount

theorem eq_of_summed {ss : List StreamId} (h : summed e found ss = .ok infos) :
    infos = found ++ ss.filterMap (summary? e) := by
  induction ss generalizing found with
  | nil =>
      cases h
      exact (List.append_nil _).symm
  | cons s rest ih =>
      rw [summed] at h
      rw [List.filterMap_cons, summary?]
      split at h
      · cases h
      next hcount =>
        rw [hcount]
        exact ih h
      next count hcount =>
        rw [hcount, ih h, List.append_assoc]
        rfl

theorem exists_of_summed_eq_error {ss : List StreamId} {refusal : Refusal}
    (h : summed e found ss = .error refusal) : ∃ s ∈ ss, e.countOf s = .error refusal := by
  induction ss generalizing found with
  | nil => cases h
  | cons s rest ih =>
      rw [summed] at h
      split at h
      next hcount =>
        cases h
        exact ⟨s, List.mem_cons_self, hcount⟩
      · obtain ⟨u, hu, hfails⟩ := ih h
        exact ⟨u, List.mem_cons_of_mem s hu, hfails⟩
      · obtain ⟨u, hu, hfails⟩ := ih h
        exact ⟨u, List.mem_cons_of_mem s hu, hfails⟩

end Listing

/-! ## The streams to go through -/

theorem Cache.Holds.mem_keys_iff {κ ν : Type} [DecidableEq κ] {c : Cache κ ν} {t : Table κ ν}
    (h : c.Holds t) (k : κ) : k ∈ c.keys ↔ ∃ v, c.peek k = some v := by
  obtain ⟨places, hslab⟩ := h.slab
  rw [keys, entries, hslab.toList_eq, ← Table.keys, ← not_iff_not, ← Table.find?_eq_none_iff,
    ← h.peek_eq]
  cases c.peek k <;> simp

theorem Archive.exists_find?_of_length {a : Archive} {s : StreamId} {count : Nat}
    (h : a.length s = .ok (some count)) : ∃ x, Extent.find? a.disk a.base s = .ok (some x) := by
  rw [length] at h
  split at h
  · cases h
  · cases h
  next x hfound => exact ⟨x, hfound⟩

/-- A stream has the type that is asked for, if one is. -/
def StreamId.Suits (s : StreamId) (filter : Option StreamType) : Prop :=
  ∀ t, filter = some t → s.type = t

theorem StreamId.suits_iff {s : StreamId} {filter : Option StreamType} :
    s.Suits filter ↔ filter.all (· = s.type) = true := by
  cases filter with
  | none => exact iff_of_true nofun rfl
  | some t => simp [Suits, eq_comm]

theorem Archive.mem_streams_iff {a : Archive} {filter : Option StreamType}
    {ss : List StreamId} (h : a.streams filter = .ok ss) {s : StreamId} :
    s ∈ ss ↔ s.Suits filter ∧ ∃ name, Extent.Bears a.disk a.base s name := by
  rw [streams] at h
  cases hall : Extent.all a.disk a.base filter with
  | error fault =>
      rw [hall] at h
      cases h
  | ok xs =>
      rw [hall] at h
      cases h
      exact Extent.mem_all_iff hall

namespace Listing

variable {e : Engine} {filter : Option StreamType} {onDisk resident : List StreamId}
  {s : StreamId} {infos : List StreamSummary}

theorem sortedBy_streams (filter : Option StreamType) (onDisk resident : List StreamId) :
    SortedBy StreamId.compareInCatalogue (streams filter onDisk resident) := by
  have hsorted : SortedBy StreamId.compareInCatalogue
      ((streams filter onDisk resident).map id) := sortedBy_map_mergeSort id _
  rwa [List.map_id] at hsorted

theorem ordered_streams (filter : Option StreamType) (onDisk resident : List StreamId) :
    (streams filter onDisk resident).Pairwise fun a b => a.compareInCatalogue b = .lt := by
  apply (sortedBy_streams filter onDisk resident).strict
  exact (List.mergeSort_perm _ _).nodup_iff.mpr (nodup_eraseDups _)

theorem mem_streams_iff :
    s ∈ streams filter onDisk resident ↔ s ∈ onDisk ∨ s ∈ resident ∧ s.Suits filter := by
  rw [streams, List.mem_mergeSort, List.mem_eraseDups, List.mem_append, List.mem_filter,
    StreamId.suits_iff]

/-- Every stream of a suitable type that has a count is gone through. -/
theorem mem_streams_of_countOf (hstill : e.Still)
    (hdisk : e.archive.streams filter = .ok onDisk) (hsuits : s.Suits filter) {count : Nat}
    (hcount : e.countOf s = .ok (some count)) :
    s ∈ streams filter onDisk e.pool.cache.keys := by
  rw [mem_streams_iff, and_iff_left hsuits]
  obtain ⟨cached, hcached⟩ := hstill.cache
  cases hresident : e.resident? s with
  | some n => exact .inr ((hcached.mem_keys_iff s).mpr ⟨n, hresident⟩)
  | none =>
      left
      rw [Engine.countOf_of_absent hresident] at hcount
      cases hlength : e.archive.length s with
      | error fault =>
          rw [hlength] at hcount
          cases hcount
      | ok found =>
          rw [hlength] at hcount
          cases hcount
          have hfound := Extent.find?_eq_some_iff.mp (Archive.exists_find?_of_length hlength)
          exact (Archive.mem_streams_iff hdisk).mpr ⟨hsuits, _, hfound⟩

/-- Only streams of a suitable type are gone through. -/
theorem suits_of_mem_streams (hdisk : e.archive.streams filter = .ok onDisk)
    (hs : s ∈ streams filter onDisk resident) : s.Suits filter := by
  rcases mem_streams_iff.mp hs with hs | ⟨-, hsuits⟩
  · exact ((Archive.mem_streams_iff hdisk).mp hs).1
  · exact hsuits

/-- What a catalogue comes to that is made alone. -/
def outcome (e : Engine) (filter : Option StreamType) : Except Refusal (List StreamSummary) :=
  match e.archive.streams filter with
  | .error fault => .error (Refusal.ofStorage fault)
  | .ok onDisk => summed e [] (streams filter onDisk e.pool.cache.keys)

theorem of_outcome_eq_ok (h : outcome e filter = .ok infos) :
    ∃ onDisk, e.archive.streams filter = .ok onDisk ∧
      infos = (streams filter onDisk e.pool.cache.keys).filterMap (summary? e) := by
  rw [outcome] at h
  cases hdisk : e.archive.streams filter with
  | error fault =>
      rw [hdisk] at h
      cases h
  | ok onDisk =>
      rw [hdisk] at h
      exact ⟨onDisk, rfl, eq_of_summed h⟩

/-- A stream of a suitable type is in the catalogue with the count that it is told to
have. -/
theorem mem_outcome_iff (hstill : e.Still) (h : outcome e filter = .ok infos) {c : Nat} :
    ⟨s, c⟩ ∈ infos ↔ s.Suits filter ∧ e.countOf s = .ok (some c) := by
  obtain ⟨onDisk, hdisk, rfl⟩ := of_outcome_eq_ok h
  rw [List.mem_filterMap]
  constructor
  · rintro ⟨u, hu, hcount⟩
    obtain ⟨rfl, hcount⟩ := summary?_eq_some_iff.mp hcount
    exact ⟨suits_of_mem_streams hdisk hu, hcount⟩
  · rintro ⟨hsuits, hcount⟩
    exact ⟨s, mem_streams_of_countOf hstill hdisk hsuits hcount,
      summary?_eq_some_iff.mpr ⟨rfl, hcount⟩⟩

theorem ordered_outcome (h : outcome e filter = .ok infos) :
    infos.Pairwise fun x y => x.stream.compareInCatalogue y.stream = .lt := by
  obtain ⟨onDisk, -, rfl⟩ := of_outcome_eq_ok h
  rw [List.pairwise_filterMap]
  refine (ordered_streams _ _ _).imp fun {s u} hlt => ?_
  intro x hx y hy
  rw [(summary?_eq_some_iff.mp hx).1, (summary?_eq_some_iff.mp hy).1]
  exact hlt

theorem reaches_outcome (hstill : e.Still) (filter : Option StreamType) (t : TaskId) :
    ∃ e', (procedure filter t).Reaches (e, start) (e', done (outcome e filter)) := by
  rw [outcome]
  cases hdisk : e.archive.streams filter with
  | error fault =>
      have hstart : step e filter t start = some (e, done (.error (Refusal.ofStorage fault))) := by
        rw [step, hdisk]
      exact ⟨e, .of_step fun _ => hstart⟩
  | ok onDisk =>
      have hstart : step e filter t start = some (e, listed onDisk) := by
        rw [step, hdisk]
      obtain ⟨e', hsummed⟩ := reaches_summed hstill filter t []
        (streams filter onDisk e.pool.cache.keys)
      exact ⟨e', .step (fun _ => hstart) (.step (fun _ => rfl) hsummed)⟩

end Listing

/-! ## The whole catalogue -/

namespace Engine

variable {e : Engine} {filter : Option StreamType} {infos : List StreamSummary}

theorem answers_list (hstill : e.Still) (filter : Option StreamType) (t : TaskId) :
    ∃ e', e.Answers t (.list filter .start) (.summaries (Listing.outcome e filter)) e' := by
  obtain ⟨e', hreach⟩ := Listing.reaches_outcome hstill filter t
  refine ⟨e', _, hreach.map (q := Work.procedure t) (f := Work.list filter) ?_, rfl⟩
  intro w e a e' a' hstep
  have hstep' : a.step e filter t = some (e', a') := hstep
  rw [Work.procedure, Work.step, hstep']
  rfl

/-- A count that is made alone tells a stream's number of events. -/
def Counts (e : Engine) (s : StreamId) (result : Except Refusal (Option Nat)) : Prop :=
  ∀ t, ∃ e', e.Answers t (.count s .start)
    (.summary (result.map fun n? => n?.map (⟨s, ·⟩))) e'

theorem counts_iff (hstill : e.Still) {s : StreamId} {result : Except Refusal (Option Nat)} :
    e.Counts s result ↔ e.countOf s = result := by
  constructor
  · intro hcounts
    obtain ⟨e', hanswers⟩ := hcounts 0
    obtain ⟨e'', hanswers'⟩ := answers_count (s := s) fun n _ => hstill.isReadable n 0
    have heq := Answer.summary.inj (hanswers'.unique hanswers).1
    cases hcount : e.countOf s with
    | error refusal =>
        rw [hcount] at heq
        cases result with
        | error refusal' =>
            cases heq
            rfl
        | ok count => cases heq
    | ok count =>
        rw [hcount] at heq
        cases result with
        | error refusal => cases heq
        | ok count' => cases count <;> cases count' <;> cases heq <;> rfl
  · rintro rfl t
    exact answers_count fun n _ => hstill.isReadable n t

/-- A catalogue goes up by type and key, and has every stream of a suitable type with the
count that is told of it, if one is. -/
structure Catalogues (e : Engine) (filter : Option StreamType) (infos : List StreamSummary) :
    Prop where
  ordered : infos.Pairwise fun x y => x.stream.compareInCatalogue y.stream = .lt
  exact : ∀ s count, ⟨s, count⟩ ∈ infos ↔ s.Suits filter ∧ e.Counts s (.ok (some count))
  /-- A resident stream that has events counts with these, on disk or not. -/
  resident : ∀ s n, s.Suits filter → e.resident? s = some n → (e.entry n).events ≠ [] →
    ∀ count, ⟨s, count⟩ ∈ infos ↔ count = (e.entry n).events.length
  /-- A resident stream without events is listed only if it is on disk. -/
  empty : ∀ s n, e.resident? s = some n → (e.entry n).events = [] →
    Extent.find? e.archive.disk e.archive.base s = .ok none → ∀ count, ⟨s, count⟩ ∉ infos

theorem catalogues_of_outcome (hstill : e.Still) (h : Listing.outcome e filter = .ok infos) :
    e.Catalogues filter infos := by
  have hmem (s : StreamId) (count : Nat) := Listing.mem_outcome_iff hstill h (s := s) (c := count)
  constructor
  · exact Listing.ordered_outcome h
  · intro s count
    rw [hmem, counts_iff hstill]
  · intro s n hsuits hresident hevents count
    rw [hmem, and_iff_right hsuits, countOf_of_resident hresident hevents, Except.ok.injEq,
      Option.some.injEq, eq_comm]
  · intro s n hresident hempty hmissing count
    rw [hmem, countOf_of_empty hresident hempty, Archive.length, hmissing]
    rintro ⟨-, ⟨⟩⟩

/-- On a still engine a catalogue that is made alone comes to an end: where it fails, a
call that it makes fails, and otherwise it is the catalogue. -/
theorem catalogues_of_still (hstill : e.Still) (filter : Option StreamType) (t : TaskId) :
    ∃ result e', e.Answers t (.list filter .start) (.summaries result) e' ∧
      match result with
      | .ok infos => e.Catalogues filter infos
      | .error refusal =>
        (∃ fault, e.archive.streams filter = .error fault ∧
          refusal = Refusal.ofStorage fault) ∨ ∃ s, e.Counts s (.error refusal) := by
  obtain ⟨e', hanswers⟩ := answers_list hstill filter t
  refine ⟨_, e', hanswers, ?_⟩
  cases hresult : Listing.outcome e filter with
  | ok infos => exact catalogues_of_outcome hstill hresult
  | error refusal =>
      rw [Listing.outcome] at hresult
      cases hdisk : e.archive.streams filter with
      | error fault =>
          rw [hdisk] at hresult
          cases hresult
          exact .inl ⟨fault, rfl, rfl⟩
      | ok onDisk =>
          rw [hdisk] at hresult
          obtain ⟨s, -, hfails⟩ := Listing.exists_of_summed_eq_error hresult
          exact .inr ⟨s, (counts_iff hstill).mpr hfails⟩

/-- A disk with the headers file of one stream, and a name that is read as another stream's
and is not that of its file. -/
def overlapped : Disk where
  nodes := ⟨[(["orders"], .directory),
    (["orders", Extent.headersName Archive.orders],
      .file (List.replicate HeaderRecord.size 0)),
    (["payments"], .directory),
    (["payments", "FFFFFFFFFFFFFFFFFFFFFFFFFFFFFFFF_0_headers.dat"], .file [])]⟩

def firstUsers : StreamId := ⟨Uuid.ofNat 0, ⟨"users", by decide⟩⟩

def nextUsers : StreamId := ⟨Uuid.ofNat 1, ⟨"users", by decide⟩⟩

/-- In memory are two events of the stream on disk, one of a stream that is not on disk, and
a stream without events. -/
def overlapping : Engine :=
  (((ofArchive {} { base := [], disk := overlapped } 0).populate nextUsers
    [Archive.placed]).populate firstUsers []).populate Archive.orders
    [Archive.placed, Archive.placed]

theorem streams_overlapping :
    overlapping.archive.streams none = .ok [Archive.orders, Extent.lastPayment] := by
  have hall : Extent.all overlapped [] none =
      .ok [Extent.ofStream [] Archive.orders, Extent.ofStream [] Extent.lastPayment] := by
    refine Extent.all_eq_ok_iff.mpr
      ⟨[Archive.orders.type, Extent.lastPayment.type], by decide +kernel, by decide +kernel, ?_⟩
    exact (List.mergeSort_of_pairwise (by decide +kernel)).symm
  exact congrArg (Except.map (List.map Extent.stream)) hall

theorem outcome_overlapping :
    Listing.outcome overlapping none = .ok [⟨Archive.orders, 2⟩, ⟨nextUsers, 1⟩] := by
  have hstreams : Listing.streams none [Archive.orders, Extent.lastPayment]
      overlapping.pool.cache.keys =
        [Archive.orders, Extent.lastPayment, firstUsers, nextUsers] :=
    List.mergeSort_of_pairwise (by decide +kernel)
  rw [Listing.outcome, streams_overlapping]
  simp only [hstreams]
  decide +kernel

/-- Of four streams that are gone through, two are in the catalogue. -/
theorem catalogues_of_overlapping :
    overlapping.Still ∧
      ∃ e', overlapping.Answers 0 (.list none .start)
          (.summaries (.ok [⟨Archive.orders, 2⟩, ⟨nextUsers, 1⟩])) e' ∧
        overlapping.Catalogues none [⟨Archive.orders, 2⟩, ⟨nextUsers, 1⟩] := by
  have hstill : overlapping.Still :=
    (((ofArchive_still _ _ _).populate _ _).populate _ _).populate _ _
  refine ⟨hstill, ?_⟩
  obtain ⟨result, e', hanswers, hresult⟩ := catalogues_of_still hstill none 0
  obtain ⟨e'', hanswers'⟩ := answers_list hstill none 0
  have heq := Answer.summaries.inj (hanswers.unique hanswers').1
  rw [outcome_overlapping] at heq
  subst heq
  exact ⟨e', hanswers, hresult⟩

/-! ## The streams on disk beside the catalogue -/

theorem Catalogues.sortedBy (h : e.Catalogues filter infos) :
    SortedBy StreamId.compareInCatalogue (infos.map (·.stream)) := by
  refine List.pairwise_map.mpr (h.ordered.imp fun {x y} hlt => ?_)
  rw [hlt]
  rfl

theorem catalogues_of_answers (hstill : e.Still) {t : TaskId} {e' : Engine}
    (h : e.Answers t (.list filter .start) (.summaries (.ok infos)) e') :
    e.Catalogues filter infos := by
  obtain ⟨e'', hanswers⟩ := answers_list hstill filter t
  apply catalogues_of_outcome hstill
  exact Answer.summaries.inj (hanswers.unique h).1

/-- The streams that are found on a disk go up by key and then by type, in whatever order
the directories are gone through.  They go up in catalogue order exactly where their keys
follow their types; and those that a catalogue has come in its order exactly where the keys
of these do. -/
theorem extentsInCatalogueOrder_iff {xs : List Extent}
    (h : Extent.all e.archive.disk e.archive.base none = .ok xs) :
    SortedBy StreamId.compare (xs.map (·.stream)) ∧
      (∀ d : Disk, e.archive.disk.nodes.Proper → d.nodes.Proper →
        (∀ q, e.archive.disk.node? q = d.node? q) →
          Extent.all d e.archive.base none = .ok xs) ∧
      (SortedBy StreamId.compareInCatalogue (xs.map (·.stream)) ↔
        StreamId.KeysFollowTypes (· ∈ xs.map (·.stream))) ∧
      ∀ t infos e', e.Still → e.Answers t (.list none .start) (.summaries (.ok infos)) e' →
        (SameOrder (xs.map (·.stream)) (infos.map (·.stream)) ↔
          StreamId.KeysFollowTypes fun s =>
            s ∈ xs.map (·.stream) ∧ s ∈ infos.map (·.stream)) := by
  have hsorted := Extent.sortedBy_all h
  refine ⟨hsorted, ?_, StreamId.sortedBy_iff_keysFollowTypes hsorted, ?_⟩
  · intro d hproper hproper' hsame
    exact Extent.all_eq_of_node? hproper hproper' hsame h
  · intro t infos e' hstill hanswers
    apply StreamId.sameOrder_iff_keysFollowTypes hsorted
    exact (catalogues_of_answers hstill hanswers).sortedBy

/-- A disk with two streams, of which the one with the lesser type has the greater key. -/
def crossed : Disk where
  nodes := ⟨[(["users"], .directory),
    (["users", Extent.headersName firstUsers], .file (List.replicate HeaderRecord.size 0)),
    (["orders"], .directory),
    (["orders", Extent.headersName Archive.orders],
      .file (List.replicate HeaderRecord.size 0))]⟩

def crossing : Engine := ofArchive {} { base := [], disk := crossed } 0

theorem all_crossed : Extent.all crossed [] none =
    .ok [Extent.ofStream [] firstUsers, Extent.ofStream [] Archive.orders] := by
  refine Extent.all_eq_ok_iff.mpr
    ⟨[firstUsers.type, Archive.orders.type], by decide +kernel, by decide +kernel, ?_⟩
  exact (List.mergeSort_of_pairwise (by decide +kernel)).symm

theorem outcome_crossing :
    Listing.outcome crossing none = .ok [⟨Archive.orders, 1⟩, ⟨firstUsers, 1⟩] := by
  have hsorted : SortedBy StreamId.compareInCatalogue [Archive.orders, firstUsers] := by
    rw [SortedBy]
    decide +kernel
  have hstreams : Listing.streams none [firstUsers, Archive.orders] crossing.pool.cache.keys =
      [Archive.orders, firstUsers] := by
    refine SortedBy.eq_of_perm (Listing.sortedBy_streams _ _ _) hsorted ?_
    exact (List.mergeSort_perm _ _).trans (List.Perm.swap _ _ _)
  have hdisk : crossing.archive.streams none = .ok [firstUsers, Archive.orders] :=
    congrArg (Except.map (List.map Extent.stream)) all_crossed
  rw [Listing.outcome, hdisk]
  simp only [hstreams]
  decide +kernel

/-- The streams come in the other order than in the catalogue. -/
theorem not_extentsInCatalogueOrder_of_crossing :
    Extent.all crossing.archive.disk crossing.archive.base none =
        .ok [Extent.ofStream [] firstUsers, Extent.ofStream [] Archive.orders] ∧
      ¬SortedBy StreamId.compareInCatalogue [firstUsers, Archive.orders] ∧
      ∃ e', crossing.Answers 0 (.list none .start)
          (.summaries (.ok [⟨Archive.orders, 1⟩, ⟨firstUsers, 1⟩])) e' ∧
        ¬SameOrder [firstUsers, Archive.orders] [Archive.orders, firstUsers] := by
  have hstill : crossing.Still := ofArchive_still _ _ _
  obtain ⟨-, -, horder, hsame⟩ := extentsInCatalogueOrder_iff (e := crossing) all_crossed
  obtain ⟨e', hanswers⟩ := answers_list hstill none 0
  rw [outcome_crossing] at hanswers
  have htypes : Archive.orders.type.text < firstUsers.type.text := by decide
  have hkeys : ¬Archive.orders.key.toNat ≤ firstUsers.key.toNat := by decide +kernel
  refine ⟨all_crossed, ?_, e', hanswers, ?_⟩
  · refine horder.not.mpr fun hfollow => hkeys (hfollow _ _ ?_ ?_ htypes)
    · exact List.mem_cons_of_mem _ List.mem_cons_self
    · exact List.mem_cons_self
  · refine (hsame 0 _ e' hstill hanswers).not.mpr fun hfollow =>
      hkeys (hfollow _ _ ⟨?_, ?_⟩ ⟨?_, ?_⟩ htypes)
    · exact List.mem_cons_of_mem _ List.mem_cons_self
    · exact List.mem_cons_self
    · exact List.mem_cons_self
    · exact List.mem_cons_of_mem _ List.mem_cons_self

end Engine

end StreamStore
