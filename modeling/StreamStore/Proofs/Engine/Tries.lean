import StreamStore.Proofs.Engine.Steps
import StreamStore.Proofs.Storage.Cancelling
import StreamStore.Proofs.Storage.Twins

/-!
# Batches written one after another

A batch is appended to the files of its stream as a whole, or the disk fails it on the
way.  Where no failed append put down a header, each stream stores what it stored before
and then the events of its batches that did not fail.  What becomes of the batches of one
stream, and what its files hold in the end, is the same as if there were no others.
-/

namespace StreamStore

/-- A batch that was tried to be written, and what came of it. -/
structure Try where
  batch : Batch
  /-- After how many bytes the disk failed the append, if it did. -/
  cut : Option Nat
  result : Except StorageFault Unit
  /-- How many bytes it put into the headers file. -/
  headerBytes : Nat

namespace Try

def isWritten (t : Try) : Bool := t.result.toBool

/-- Whether a try put down no header, unless it succeeded. -/
def isQuiet (t : Try) : Bool := t.isWritten || t.headerBytes == 0

/-- What was asked for. -/
def request (t : Try) : Batch × Option Nat := (t.batch, t.cut)

/-- The tries of a stream's batches. -/
def ofStream (s : StreamId) (tries : List Try) : List Try :=
  tries.filter fun t => t.batch.stream = s

/-- The events of a stream's batches that were written. -/
def written (s : StreamId) (tries : List Try) : List Event :=
  ((ofStream s tries).filter isWritten).flatMap fun t => t.batch.events

theorem ofStream_ofStream (s : StreamId) (tries : List Try) :
    ofStream s (ofStream s tries) = ofStream s tries := by
  rw [ofStream, ofStream, List.filter_filter]
  simp only [Bool.and_self]

theorem written_append (s : StreamId) (tries more : List Try) :
    written s (tries ++ more) = written s tries ++ written s more := by
  simp only [written, ofStream, List.filter_append, List.flatMap_append]

theorem written_singleton (s : StreamId) (t : Try) :
    written s [t] = if t.batch.stream = s ∧ t.isWritten then t.batch.events else [] := by
  rw [written, ofStream, List.filter_filter, List.filter_singleton]
  by_cases hs : t.batch.stream = s <;> cases hwritten : t.isWritten <;>
    simp [hs]

end Try

/-- Where no header came down, an append that failed left what is stored as it was. -/
theorem Extent.Extended.stores_of_length_le {d d' : Disk} {base : Path} {s : StreamId}
    {stored events : List Event} (hextended : Extended d d' base s events)
    (h : Stores d base s stored [])
    (hlength : (d'.bytesAt (ofStream base s).headers).length ≤
      (d.bytesAt (ofStream base s).headers).length) :
    Stores d' base s stored [] := by
  cases hextended with
  | data hheaders hdata hroom => exact h.extend_data hheaders hdata hroom
  | @headers written hpayload hroom hdata hheaders hwritten =>
      rw [Disk.bytesAt_eq hheaders, List.length_append] at hlength
      have hnil : written = [] := List.eq_nil_of_length_eq_zero (by omega)
      subst hnil
      have hstores := h.extend_headers (n := 0) hpayload hroom hdata hheaders (by decide)
      rw [List.take_zero, List.append_nil] at hstores
      exact hstores

namespace Archive

/-- Write a batch as a worker does, with nothing to do for an empty one. -/
def writeBatch (a : Archive) (b : Batch) (cut : Option Nat) : Except StorageFault Unit × Archive :=
  if b.events.isEmpty then (.ok (), a)
  else Persisting.write a b.stream b.events none { writeCut := cut }

/-- How long the headers file of a stream is. -/
def headersLength (a : Archive) (s : StreamId) : Nat := (a.disk.bytesAt (a.extent s).headers).length

/-- Write a batch, with a note of what came of it. -/
def tryBatch (a : Archive) (b : Batch) (cut : Option Nat) : Try × Archive :=
  let (result, a') := a.writeBatch b cut
  (⟨b, cut, result, a'.headersLength b.stream - a.headersLength b.stream⟩, a')

/-- Write batches one after another. -/
def tryAll (a : Archive) : List (Batch × Option Nat) → List Try × Archive
  | [] => ([], a)
  | (b, cut) :: requests =>
    let first := a.tryBatch b cut
    let others := first.2.tryAll requests
    (first.1 :: others.1, others.2)

variable {a a' : Archive} {s : StreamId} {b : Batch} {cut : Option Nat}
  {result : Except StorageFault Unit} {stored : List Event}

theorem tryAll_concat (a : Archive) (requests : List (Batch × Option Nat)) (b : Batch)
    (cut : Option Nat) :
    a.tryAll (requests ++ [(b, cut)]) =
      ((a.tryAll requests).1 ++ [((a.tryAll requests).2.tryBatch b cut).1],
        ((a.tryAll requests).2.tryBatch b cut).2) := by
  induction requests generalizing a with
  | nil => rfl
  | cons request requests ih =>
      obtain ⟨b₁, cut₁⟩ := request
      rw [List.cons_append, tryAll, ih]
      rfl

/-! ## One batch -/

theorem tryBatch_batch (a : Archive) (b : Batch) (cut : Option Nat) :
    (a.tryBatch b cut).1.batch = b := rfl

theorem batch_of_tryBatch {t : Try} (htry : a.tryBatch b cut = (t, a')) : t.batch = b :=
  (congrArg (fun r => r.1.batch) htry).symm

theorem request_of_tryBatch {t : Try} (htry : a.tryBatch b cut = (t, a')) :
    t.request = (b, cut) :=
  (congrArg (fun r => r.1.request) htry).symm

theorem tryBatch_of_writeBatch (hrun : a.writeBatch b cut = (result, a')) :
    a.tryBatch b cut =
      (⟨b, cut, result, a'.headersLength b.stream - a.headersLength b.stream⟩, a') := by
  rw [tryBatch, hrun]

theorem isWritten_tryBatch (a : Archive) (b : Batch) (cut : Option Nat) :
    (a.tryBatch b cut).1.isWritten = (a.writeBatch b cut).1.toBool := rfl

/-- An empty batch does nothing; any other is tried. -/
theorem Sound.tried_writeBatch (h : a.Sound) (hrun : a.writeBatch b cut = (result, a')) :
    (result, a') = (.ok (), a) ∨ a.Tried b.stream b.events a' := by
  rw [Archive.writeBatch] at hrun
  split at hrun
  · exact .inl hrun.symm
  next hne =>
    right
    cases cut with
    | none => exact h.tried_append (by simpa using hne) hrun
    | some bytes => exact h.tried_appendCut hrun

/-- Writing a batch changes nothing but the places of its stream, even where it fails. -/
theorem Sound.writeBatch (h : a.Sound) (hrun : a.writeBatch b cut = (result, a')) :
    a'.base = a.base ∧ a'.Sound ∧
      Disk.AgreeOff (Extent.IsPlaceOf a.base b.stream) a.disk a'.disk := by
  obtain hsame | htried := h.tried_writeBatch hrun
  · cases hsame
    exact ⟨rfl, h, fun _ _ => rfl⟩
  · exact ⟨htried.base_eq, htried.sound, htried.agree⟩

/-- A batch that is written adds its events to what its stream stores. -/
theorem Sound.stores_writeBatch (h : a.Sound)
    (hstores : Extent.Stores a.disk a.base b.stream stored [])
    (hrun : a.writeBatch b cut = (.ok (), a')) :
    Extent.Stores a'.disk a'.base b.stream (stored ++ b.events) [] := by
  rw [Archive.writeBatch] at hrun
  split at hrun
  next hempty =>
    cases hrun
    rw [List.isEmpty_iff.mp hempty, List.append_nil]
    exact hstores
  · cases cut with
    | none => exact h.stores_append hstores hrun
    | some bytes =>
        exact absurd (congrArg Prod.fst hrun) (fst_appendCut_ne_ok a b.stream b.events bytes)

/-- A batch that fails without a header leaves what its stream stores. -/
theorem Sound.stores_writeBatch_error (h : a.Sound)
    (hstores : Extent.Stores a.disk a.base b.stream stored []) {fault : StorageFault}
    (hrun : a.writeBatch b cut = (.error fault, a'))
    (hquiet : a'.headersLength b.stream ≤ a.headersLength b.stream) :
    Extent.Stores a'.disk a'.base b.stream stored [] := by
  obtain hsame | htried := h.tried_writeBatch hrun
  · cases hsame
  · rw [headersLength, headersLength, extent, extent, htried.base_eq] at hquiet
    rw [htried.base_eq]
    exact htried.extended.stores_of_length_le hstores hquiet

theorem Sound.tryBatch (h : a.Sound) (b : Batch) (cut : Option Nat) :
    (a.tryBatch b cut).2.base = a.base ∧ (a.tryBatch b cut).2.Sound ∧
      Disk.AgreeOff (Extent.IsPlaceOf a.base b.stream) a.disk (a.tryBatch b cut).2.disk :=
  h.writeBatch (Prod.eta (a.writeBatch b cut)).symm

/-- What a quiet try leaves stored for any stream. -/
theorem Sound.stores_tryBatch (h : a.Sound) (hstores : Extent.Stores a.disk a.base s stored [])
    (hquiet : (a.tryBatch b cut).1.isQuiet = true) :
    Extent.Stores (a.tryBatch b cut).2.disk (a.tryBatch b cut).2.base s
      (stored ++ Try.written s [(a.tryBatch b cut).1]) [] := by
  rw [Try.written_singleton, tryBatch_batch]
  by_cases hs : b.stream = s
  · subst hs
    have hrun : a.writeBatch b cut = ((a.writeBatch b cut).1, (a.tryBatch b cut).2) := rfl
    rw [Try.isQuiet, isWritten_tryBatch] at hquiet
    rw [isWritten_tryBatch]
    cases hresult : (a.writeBatch b cut).1 with
    | ok _ =>
        rw [hresult] at hrun
        rw [if_pos ⟨rfl, rfl⟩]
        exact h.stores_writeBatch hstores hrun
    | error fault =>
        rw [hresult] at hrun hquiet
        rw [if_neg fun hboth => Bool.false_ne_true hboth.2, List.append_nil]
        exact h.stores_writeBatch_error hstores hrun
          (Nat.sub_eq_zero_iff_le.mp (beq_iff_eq.mp hquiet))
  · obtain ⟨hbase, -, hagree⟩ := h.tryBatch b cut
    rw [if_neg fun hboth => hs hboth.1, List.append_nil, hbase]
    exact hstores.of_agreeOff hagree (Ne.symm hs)

/-- A batch fares the same, and does the same to its stream, in archives in which the
stream has the same files. -/
theorem Alike.tryBatch (h : Alike b.stream a a') (cut : Option Nat) :
    (a'.tryBatch b cut).1 = (a.tryBatch b cut).1 ∧
      Alike b.stream (a.tryBatch b cut).2 (a'.tryBatch b cut).2 := by
  have hlength : ∀ {a a' : Archive}, Alike b.stream a a' →
      a'.headersLength b.stream = a.headersLength b.stream := fun {a a'} h => by
    rw [headersLength, headersLength, extent, extent, h.base_eq,
      Disk.bytesAt_congr (h.same _ (Extent.isFileOf_headers a.base b.stream))]
  have hwrite : (a'.writeBatch b cut).1 = (a.writeBatch b cut).1 ∧
      Alike b.stream (a.writeBatch b cut).2 (a'.writeBatch b cut).2 := by
    rw [writeBatch, writeBatch]
    split
    · exact ⟨rfl, h⟩
    · cases cut with
      | none => exact h.append b.events none
      | some bytes => exact h.appendCut b.events bytes
  obtain ⟨hresult, halike⟩ := hwrite
  refine ⟨?_, halike⟩
  simp only [Archive.tryBatch, hresult, hlength h, hlength halike]

/-! ## All batches -/

theorem Sound.tryAll (h : a.Sound) (requests : List (Batch × Option Nat)) :
    (a.tryAll requests).2.base = a.base ∧ (a.tryAll requests).2.Sound := by
  induction requests generalizing a with
  | nil => exact ⟨rfl, h⟩
  | cons request requests ih =>
      obtain ⟨hbase, hsound, -⟩ := h.tryBatch request.1 request.2
      obtain ⟨hbase', hsound'⟩ := ih hsound
      exact ⟨hbase'.trans hbase, hsound'⟩

/-- Where no failed append puts down a header, each stream stores what it did before and
then the events of its batches that were written. -/
theorem Sound.stores_tryAll (h : a.Sound) (hstores : Extent.Stores a.disk a.base s stored [])
    (requests : List (Batch × Option Nat))
    (hquiet : ∀ t ∈ (a.tryAll requests).1, t.isQuiet = true) :
    Extent.Stores (a.tryAll requests).2.disk (a.tryAll requests).2.base s
      (stored ++ Try.written s (a.tryAll requests).1) [] := by
  induction requests generalizing a stored with
  | nil =>
      change Extent.Stores a.disk a.base s (stored ++ []) []
      rw [List.append_nil]
      exact hstores
  | cons request requests ih =>
      obtain ⟨b, cut⟩ := request
      obtain ⟨-, hsound, -⟩ := h.tryBatch b cut
      obtain ⟨hfirst, hothers⟩ := List.forall_mem_cons.mp hquiet
      have hstep := ih hsound (h.stores_tryBatch hstores hfirst) hothers
      rw [List.append_assoc, ← Try.written_append] at hstep
      exact hstep

/-- For one stream it is as if its batches were the only ones. -/
theorem Alike.tryAll (h : Alike s a a') (requests : List (Batch × Option Nat)) :
    (a'.tryAll (requests.filter fun request => request.1.stream = s)).1 =
        Try.ofStream s (a.tryAll requests).1 ∧
      Alike s (a.tryAll requests).2
        (a'.tryAll (requests.filter fun request => request.1.stream = s)).2 := by
  induction requests generalizing a a' with
  | nil => exact ⟨rfl, h⟩
  | cons request requests ih =>
      obtain ⟨b, cut⟩ := request
      by_cases hs : b.stream = s
      · subst hs
        obtain ⟨htry, halike⟩ := h.tryBatch cut
        obtain ⟨hothers, hend⟩ := ih halike
        rw [List.filter_cons_of_pos (by simp), Archive.tryAll, Archive.tryAll]
        refine ⟨?_, hend⟩
        simp only
        rw [Try.ofStream, List.filter_cons_of_pos (by simp [tryBatch_batch]), htry, hothers]
        rfl
      · obtain ⟨hbase, hsound, hagree⟩ := h.sound.tryBatch b cut
        obtain ⟨hothers, hend⟩ := ih (h.of_agreeOff hbase hsound hagree (Ne.symm hs))
        rw [List.filter_cons_of_neg (by simpa using hs), Archive.tryAll]
        refine ⟨?_, hend⟩
        simp only
        have hother : (a.tryBatch b cut).1.batch.stream ≠ s := hs
        rw [Try.ofStream, List.filter_cons_of_neg (by simpa using hother), hothers]
        rfl

end Archive

end StreamStore
