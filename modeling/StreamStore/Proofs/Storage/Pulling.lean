import StreamStore.Proofs.Storage.Crash
import StreamStore.Proofs.Storage.Positions

/-!
# Pulling events from arbitrary bytes

Events are pulled one after another, and a reader may seek a record even where the data file's
cursor stands at it already.  Whichever records are sought, what is pulled are the events at the
positions of the read up to the first failure, and nothing comes after that.
-/

namespace StreamStore

/-- The items before the first failure, and that failure. -/
def untilFailure {ε α : Type} : List (Except ε α) → List α × Option ε
  | [] => ([], none)
  | .ok item :: results =>
    let (items, failure) := untilFailure results
    (item :: items, failure)
  | .error fault :: _ => ([], some fault)

namespace EventSequence

variable {d : Disk} {p : PendingEvents} {headers data : Node} {i left : Nat}

/-- Forget where the data file's cursor stands, so that the next record is sought. -/
def forget : EventSequence → EventSequence
  | opened ahead => opened ahead.forget
  | s => s

/-- Pull all events, and seek those that `seeks` says, even where the cursor is known to be. -/
def pullSeeking (d : Disk) (seeks : Nat → Bool) (s : EventSequence) :
    List Event × PullEnd × EventSequence :=
  let ahead := match s.force d with
    | .ok ahead => ahead.headers.size
    | .error _ => 0
  pullWith (fun seek s => (if seek then s.forget else s).next d false) seeks none (ahead + 1) 0 s

/-- How pulling all items ends. -/
def ending : Option StorageFault → PullEnd
  | none => .finished
  | some fault => .failed fault true

theorem next_of_force {s : EventSequence} (h : s.force d = .ok p) (cancelled : Bool) :
    s.next d cancelled = (opened p).next d cancelled := by
  rw [next, next, h]
  rfl

/-- Pulling all items depends on a sequence by what its first item is. -/
theorem pullWith_eq_of_next {next : Bool → EventSequence →
      Option (Except StorageFault Event) × EventSequence} {flags : Nat → Bool} {count : Nat}
    (s s' : EventSequence) (h : next (flags count) s = next (flags count) s') (fuel : Nat) :
    pullWith next flags none (fuel + 1) count s = pullWith next flags none (fuel + 1) count s' := by
  rw [pullWith, pullWith, h, if_neg (by simp), if_neg (by simp)]

theorem next_zero (h : p.StandsAt d headers data i 0) :
    (opened p).next d false = (none, empty) := by
  simp only [next, force, h.next_zero]

theorem next_succ (h : p.StandsAt d headers data i (left + 1)) :
    match headers.eventAt data i with
    | .ok e => ∃ p', (opened p).next d false = (some (.ok e), opened p') ∧
        p'.StandsAt d headers data (i + 1) left
    | .error fault => (opened p).next d false = (some (.error fault), opened .none) := by
  have hnext := h.next_succ
  cases hevent : headers.eventAt data i with
  | ok e =>
      rw [hevent] at hnext
      obtain ⟨p', hnext, hstands⟩ := hnext
      refine ⟨p', ?_, hstands⟩
      simp only [next, force, hnext]
  | error fault =>
      rw [hevent] at hnext
      simp only [next, force, hnext]

/-- Whether or not records are sought, a reader gives the events at its positions up to the first
failure, and is over after that. -/
theorem exists_pullWith {next : Bool → EventSequence →
      Option (Except StorageFault Event) × EventSequence} {flags : Nat → Bool}
    (hnext : ∀ count s, next (flags count) s = s.next d false ∨
      next (flags count) s = s.forget.next d false)
    (h : p.StandsAt d headers data i left) (count : Nat) :
    let found := untilFailure ((List.range' i left).map (headers.eventAt data))
    ∃ rest, pullWith next flags none (left + 1) count (opened p) =
      (found.1, ending found.2, rest) := by
  induction left generalizing p i count with
  | zero =>
      have hend : next (flags count) (opened p) = (none, empty) := by
        rcases hnext count (opened p) with heq | heq
        · rw [heq, next_zero h]
        · rw [heq, forget, next_zero h.forget]
      refine ⟨empty, ?_⟩
      rw [pullWith, if_neg (by simp), hend]
      rfl
  | succ left ih =>
      rw [pullWith, if_neg (by simp), List.range'_succ, List.map_cons]
      have hstep := next_succ h
      have hsought := next_succ h.forget
      cases hevent : headers.eventAt data i with
      | ok e =>
          rw [hevent] at hstep hsought
          obtain ⟨p', hcame, hstands⟩ : ∃ p', next (flags count) (opened p) =
              (some (.ok e), opened p') ∧ p'.StandsAt d headers data (i + 1) left := by
            rcases hnext count (opened p) with heq | heq
            · rw [heq]
              exact hstep
            · rw [heq]
              exact hsought
          obtain ⟨rest, hrest⟩ := ih hstands (count + 1)
          refine ⟨rest, ?_⟩
          simp only [hcame, hrest, untilFailure]
      | error fault =>
          rw [hevent] at hstep hsought
          have hfails : next (flags count) (opened p) = (some (.error fault), opened .none) := by
            rcases hnext count (opened p) with heq | heq
            · rw [heq, hstep]
            · rw [heq, forget, hsought]
          have hover : next (flags count) (opened .none) = (none, empty) := by
            rcases hnext count (opened .none) with heq | heq
            · rw [heq]
              rfl
            · rw [heq]
              rfl
          refine ⟨empty, ?_⟩
          simp only [hfails, hover, untilFailure]
          rfl

end EventSequence

/-! ## Reading arbitrary bytes -/

/-- What reads do for whatever bytes a stream's two files have. -/
structure Archive.ReadsByPosition (a : Archive) (s : StreamId) (headers data : Bytes) : Prop where
  /-- A read gives the events at its positions up to the first failure, and is over after that, no
  matter which records are sought. -/
  pulled : ∀ skip take, ∃ sequence, a.read s skip take = .ok sequence ∧
    let found := untilFailure ((positions skip take (headers.length / HeaderRecord.size)).map
      fun i => (HeaderRecord.nth headers i).eventIn data)
    (∃ rest, sequence.pull a.disk (fun _ => false) none =
        (found.1, EventSequence.ending found.2, rest)) ∧
      ∀ seeks, ∃ rest, sequence.pullSeeking a.disk seeks =
        (found.1, EventSequence.ending found.2, rest)
  collected : ∀ skip take, a.readAll s skip take false =
    (positions skip take (headers.length / HeaderRecord.size)).mapM
      fun i => (HeaderRecord.nth headers i).eventIn data
  /-- A sum of 64 bits that stops at the largest number gives the same positions. -/
  saturated : ∀ skip take, headers.length ≤ Disk.maxFile →
    HeadersFile.stop skip (some take) (headers.length / HeaderRecord.size) =
      min (min (skip + take) (UInt64.size - 1)) (headers.length / HeaderRecord.size)
  header_fits : ∀ skip take, ∀ i ∈ positions skip take (headers.length / HeaderRecord.size),
    (i + 1) * HeaderRecord.size ≤ headers.length
  /-- The numbers of a valid header are in range, and so is where it says that its record ends. -/
  in_range : ∀ i, (HeaderRecord.nth headers i).validate maxEventTypeLength = .ok () →
    let h := HeaderRecord.nth headers i
    (0 ≤ h.typeLength.toInt ∧ h.typeLength.toInt ≤ maxEventTypeLength) ∧
      h.dataOffset.toUInt64.toNat = h.dataOffset.toInt.toNat ∧ 0 ≤ h.dataLength.toInt ∧
      h.dataOffset.toInt.toNat + (maxEventTypeLength + h.dataLength.toInt.toNat) < UInt64.size
  spells : ∀ i e, (HeaderRecord.nth headers i).eventIn data = .ok e →
    (HeaderRecord.nth headers i).Spells data e
  not_text : ∀ i fault,
    (HeaderRecord.nth headers i).eventIn data = .error (.corrupt (.typeNotUtf8 fault)) →
      ∀ text : String, Utf8.encode text.toList ≠
        (data.drop (HeaderRecord.nth headers i).dataOffset.toInt.toNat).take
          (HeaderRecord.nth headers i).typeLength.toInt.toNat

namespace Archive

variable {a : Archive} {s : StreamId} {headers data : Bytes}

/-- Reads of a stream whose files are there go by position, whatever bytes the files have. -/
theorem readsByPosition_of_read (hheaders : a.disk.read (a.extent s).headers = .ok headers)
    (hdata : a.disk.read (a.extent s).data = .ok data) : a.ReadsByPosition s headers data := by
  have hheaders' := Disk.lookup_of_read hheaders
  have hdata' := Disk.lookup_of_read hdata
  constructor
  · intro skip take
    obtain ⟨hread, p, hforce, hsize, hforget, hstands⟩ :=
      exists_standsAt hheaders' hdata' skip take
    refine ⟨_, hread, ?_, fun seeks => ?_⟩
    · rw [EventSequence.pull, EventSequence.pullWith_eq_of_next _ (.opened p)
        (EventSequence.next_of_force hforce false)]
      simp only [hforce, hsize]
      exact EventSequence.exists_pullWith (fun _ _ => .inl rfl) hstands 0
    · have hfirst := EventSequence.next_of_force hforce false
      rw [EventSequence.pullSeeking, EventSequence.pullWith_eq_of_next _ (.opened p)]
      · simp only [hforce, hsize]
        refine EventSequence.exists_pullWith (fun count s => ?_) hstands 0
        cases seeks count
        · exact .inl rfl
        · exact .inr rfl
      · cases seeks 0
        · exact hfirst
        · exact hfirst.trans (congrArg (fun p => EventSequence.next a.disk false (.opened p))
            hforget.symm)
  · intro skip take
    exact readAll_of_lookup hheaders' hdata' skip take
  · intro skip take hfile
    have htotal := Nat.div_le_self headers.length HeaderRecord.size
    rw [Disk.maxFile] at hfile
    rw [HeadersFile.stop, UInt64.size]
    omega
  · intro skip take i hi
    have hlt := lt_of_mem_positions hi
    exact (Nat.le_div_iff_mul_le (by decide)).mp hlt
  · intro i hvalid
    obtain ⟨htype, hoffset, hlength⟩ := DataFile.bounds_of_validate hvalid
    have hbefore := (HeaderRecord.nth headers i).dataOffset.toInt_lt
    have hbelow := (HeaderRecord.nth headers i).dataLength.toInt_lt
    refine ⟨by omega, (DataFile.offset_of_nonneg hoffset).1, by omega, ?_⟩
    rw [maxEventTypeLength, UInt64.size]
    omega
  · intro i e
    exact HeaderRecord.spells_of_eventIn
  · intro i fault
    exact HeaderRecord.ne_encode_of_eventIn

/-- An archive in which two records of a stream describe the same bytes, and a record that makes
no sense and a torn one follow. -/
def spoiled : Archive :=
  let a := (blank.append orders [placed] none).2
  let record := (DataFile.header 0 (TypeBuffer.ofType placed.type) placed).encode
  let content := record ++ record ++ List.replicate 31 0xFF
  { a with disk := a.disk.put (a.extent orders).headers (.file content) }

theorem readsByPosition_of_spoiled :
    ∃ headers data, spoiled.disk.read (spoiled.extent orders).headers = .ok headers ∧
      spoiled.disk.read (spoiled.extent orders).data = .ok data ∧
      spoiled.readAll orders none (some 2) false = .ok [placed, placed] ∧
      spoiled.readAll orders (some 1) none false = .error (.corrupt (.typeLength (-1))) ∧
      spoiled.ReadsByPosition orders headers data := by
  have hheaders : (spoiled.disk.read (spoiled.extent orders).headers).toBool = true := by
    decide +kernel
  have hdata : (spoiled.disk.read (spoiled.extent orders).data).toBool = true := by
    decide +kernel
  cases hheaders' : spoiled.disk.read (spoiled.extent orders).headers with
  | error fault =>
      rw [hheaders'] at hheaders
      cases hheaders
  | ok headers =>
      cases hdata' : spoiled.disk.read (spoiled.extent orders).data with
      | error fault =>
          rw [hdata'] at hdata
          cases hdata
      | ok data =>
          exact ⟨headers, data, rfl, rfl, by decide +kernel, by decide +kernel,
            readsByPosition_of_read hheaders' hdata'⟩

end Archive

end StreamStore
