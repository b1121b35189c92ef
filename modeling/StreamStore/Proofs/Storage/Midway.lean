import StreamStore.Proofs.Storage.Cancelling

/-!
# Reading in the middle of an append

The bytes of an append reach the data file first and the headers file second, each in
order.  So at any byte of either file what can be read is what was there before and the
first events of the batch, as many as there are whole new headers: a header is there only
once the record it points at is.
-/

namespace StreamStore.Archive

variable {a a' a₁ a₂ a₃ : Archive} {s : StreamId} {events xs ys : List Event} {bytes : Nat}
  {result : Except StorageFault Unit}

/-- An append that is cut off wrote the first of the bytes that the completed append
writes, those of the data file before those of the headers file. -/
theorem Added.bytesAt_appendCut (hadded : a.Added s events a₃) (h : a.Sound)
    (hcut : a.appendCut s events bytes = (result, a')) :
    a'.disk.bytesAt (a.extent s).data =
        (a₃.disk.bytesAt (a.extent s).data).take
          ((a.disk.bytesAt (a.extent s).data).length + bytes) ∧
      a'.disk.bytesAt (a.extent s).headers =
        (a₃.disk.bytesAt (a.extent s).headers).take
          ((a.disk.bytesAt (a.extent s).headers).length +
            (bytes - ((a₃.disk.bytesAt (a.extent s).data).length -
              (a.disk.bytesAt (a.extent s).data).length))) := by
  have hfile := Extent.isFileOf_headers a.base s
  have hfile' := Extent.isFileOf_data a.base s
  have hroom := hadded.room
  have hroom' := hadded.headers_room
  rw [Disk.bytesAt_eq hadded.data_node, Disk.bytesAt_eq hadded.headers_node,
    List.length_append, Nat.add_sub_cancel_left]
  rw [extent] at *
  obtain ⟨d₁, hprepare, hrooted₁, htype₁, hagree₁⟩ := h.rooted.prepare_extent s
  have hdata₁ : d₁.bytesAt (Extent.ofStream a.base s).data =
      a.disk.bytesAt (Extent.ofStream a.base s).data :=
    Disk.bytesAt_congr (hagree₁ _ (hfile'.ne_typeDirectory s.type))
  obtain ⟨d₂, hopen, hrooted₂, -, hagree₂⟩ :=
    hrooted₁.openForWriting_file hfile' htype₁
  have htype₂ : d₂.node? (Extent.typeDirectory a.base s.type) = some .directory := by
    rw [hagree₂ _ (hfile'.ne_typeDirectory s.type).symm, htype₁]
  have hheaders₂ : d₂.bytesAt (Extent.ofStream a.base s).headers =
      a.disk.bytesAt (Extent.ofStream a.base s).headers := by
    apply Disk.bytesAt_congr
    rw [hagree₂ _ (Extent.headers_ne_data a.base s s),
      hagree₁ _ (hfile.ne_typeDirectory s.type)]
  rw [hdata₁] at hopen
  simp only [Archive.appendCut, hprepare, hopen] at hcut
  have hlaid := DataFile.layOut_snd_of_fits hadded.payload none
    (a.disk.bytesAt (Extent.ofStream a.base s).data).length a.cache
  generalize hlayOut : DataFile.layOut none
    (a.disk.bytesAt (Extent.ofStream a.base s).data).length a.cache events = laidOut
    at hcut hlaid
  obtain ⟨laid, outcome⟩ := laidOut
  cases hlaid
  obtain ⟨hbytes, hheaders, -⟩ := DataFile.layOut_eq_ok h.cache_sound hlayOut
  have hfits : (laid.bytes.take bytes).length ≤
      Disk.maxFile - (a.disk.bytesAt (Extent.ofStream a.base s).data).length := by
    rw [hbytes]
    exact Nat.le_trans (List.length_take_le' _ _) hroom
  obtain ⟨hrooted₃, hnode₃, hagree₃⟩ := hrooted₂.extend_file hfile' htype₂
    (a.disk.bytesAt (Extent.ofStream a.base s).data) (laid.bytes.take bytes)
  have hheaders₃ := (Disk.bytesAt_congr
    (hagree₃ _ (Extent.headers_ne_data a.base s s))).trans hheaders₂
  rw [List.take_of_length_le hfits] at hnode₃
  have hwritten : (d₂.extend (Extent.ofStream a.base s).data
      (a.disk.bytesAt (Extent.ofStream a.base s).data) (laid.bytes.take bytes)).1 = .ok () :=
    if_pos hfits
  rw [List.take_length_add_append, List.take_length_add_append]
  generalize d₂.extend (Extent.ofStream a.base s).data _ (laid.bytes.take bytes) = written
    at hcut hrooted₃ hnode₃ hagree₃ hheaders₃ hwritten
  obtain ⟨writing, d₃⟩ := written
  cases hwritten
  simp only at hcut hrooted₃ hnode₃ hagree₃ hheaders₃
  rw [hbytes] at hnode₃
  split at hcut
  next hbefore =>
    rw [hbytes] at hbefore
    cases hcut
    rw [Nat.sub_eq_zero_of_le (Nat.le_of_lt hbefore), List.take_zero, List.append_nil]
    exact ⟨Disk.bytesAt_eq hnode₃, hheaders₃⟩
  next hwhole =>
    have htype₃ : d₃.node? (Extent.typeDirectory a.base s.type) = some .directory := by
      rw [hagree₃ _ (hfile'.ne_typeDirectory s.type).symm, htype₂]
    obtain ⟨d₄, hopen', hrooted₄, -, hagree₄⟩ := hrooted₃.openForWriting_file hfile htype₃
    have htype₄ : d₄.node? (Extent.typeDirectory a.base s.type) = some .directory := by
      rw [hagree₄ _ (hfile.ne_typeDirectory s.type).symm, htype₃]
    rw [hheaders₃] at hopen'
    simp only [hopen', hheaders, hbytes] at hcut
    obtain ⟨-, hnode₅, hagree₅⟩ := hrooted₄.extend_file hfile htype₄
      (a.disk.bytesAt (Extent.ofStream a.base s).headers)
      (((DataFile.headersFrom (a.disk.bytesAt (Extent.ofStream a.base s).data).length
        events).flatMap HeaderRecord.encode).take
          (bytes - (events.flatMap DataFile.record).length))
    have hfits' : (((DataFile.headersFrom
        (a.disk.bytesAt (Extent.ofStream a.base s).data).length events).flatMap
          HeaderRecord.encode).take (bytes - (events.flatMap DataFile.record).length)).length ≤
        Disk.maxFile - (a.disk.bytesAt (Extent.ofStream a.base s).headers).length := by
      refine Nat.le_trans (List.length_take_le' _ _) ?_
      rw [HeaderRecord.length_flatMap_encode, DataFile.length_headersFrom]
      exact hroom'
    rw [List.take_of_length_le hfits'] at hnode₅
    cases hcut
    refine ⟨?_, Disk.bytesAt_eq hnode₅⟩
    apply Disk.bytesAt_eq
    rw [hagree₅ _ (Extent.headers_ne_data a.base s s).symm,
      hagree₄ _ (Extent.headers_ne_data a.base s s).symm, hnode₃]

/-- At any byte of an append, as after a crash there, a full read gives what completed
appends brought to the stream and then exactly the first events of the batch whose new
headers are whole, with type names that are too long cut as always; what is on disk at
that byte is the first part of what the append writes when it completes. -/
theorem readAll_midway (hvacant : a.disk.Vacant a.base) (hcache : a.cache.Sound)
    (hxs : Appended s a xs a₁) (hcut : a₁.appendCut s ys bytes = (result, a₂)) :
    (∃ k, k ≤ ys.length ∧ a₂.wholeHeaders s = xs.length + k ∧
      a₂.readAll s none none false = .ok ((xs ++ ys.take k).map Event.stored) ∧
      ((∀ e ∈ xs ++ ys, e.type.utf8ByteSize ≤ maxEventTypeLength) →
        a₂.readAll s none none false = .ok (xs ++ ys.take k))) ∧
    ∀ patience a₃, ys ≠ [] → a₁.append s ys patience = (.ok (), a₃) →
      a₂.disk.bytesAt (a₁.extent s).data =
          (a₃.disk.bytesAt (a₁.extent s).data).take
            ((a₁.disk.bytesAt (a₁.extent s).data).length + bytes) ∧
        a₂.disk.bytesAt (a₁.extent s).headers =
          (a₃.disk.bytesAt (a₁.extent s).headers).take
            ((a₁.disk.bytesAt (a₁.extent s).headers).length +
              (bytes - ((a₃.disk.bytesAt (a₁.extent s).data).length -
                (a₁.disk.bytesAt (a₁.extent s).data).length))) := by
  have hsound : a.Sound := ⟨hvacant.rooted, hcache⟩
  obtain ⟨-, hsound₁⟩ := hxs.sound hsound
  have hstores₁ := hxs.stores hsound (Extent.stores_nil_of_vacant hvacant s)
  rw [List.nil_append] at hstores₁
  obtain ⟨-, hsound₂, n, torn, hstores₂⟩ := hsound₁.appendCut hstores₁ hcut
  constructor
  · have htake : ys.take (min n ys.length) = ys.take n := by
      rw [List.take_eq_take_iff, Nat.min_assoc, Nat.min_self]
    obtain ⟨hread, -⟩ := tells_of_stores hsound₂ hstores₂
    refine ⟨min n ys.length, Nat.min_le_right _ _, ?_, ?_, ?_⟩
    · rw [wholeHeaders_of_stores hstores₂, List.length_append, List.length_take]
    · rw [htake]
      exact hread
    · intro hfits
      rw [htake, hread]
      refine congrArg Except.ok ?_
      refine (List.map_congr_left fun e he => Event.stored_of_fits (hfits e ?_)).trans
        (List.map_id _)
      rcases List.mem_append.mp he with hmem | hmem
      · exact List.mem_append_left ys hmem
      · exact List.mem_append_right xs (List.mem_of_mem_take hmem)
  · intro patience a₃ hne hrun
    have hadded := added_of_append hsound₁.rooted hsound₁.cache_sound hne hrun
    exact hadded.bytesAt_appendCut hsound₁ hcut

/-- The archive after one completed append. -/
def placedOnce : Archive := (blank.append orders [placed] none).2

/-- Ten bytes into the second of two new headers, the first new event is read behind the
one that was there. -/
theorem readAll_in_second_header :
    (placedOnce.appendCut orders [placed, placed] 168).2.wholeHeaders orders = 2 ∧
      (placedOnce.appendCut orders [placed, placed] 168).2.readAll orders none none false =
        .ok [placed, placed] := by
  have hrun : blank.append orders [placed] none = (.ok (), placedOnce) := by
    have hok : (blank.append orders [placed] none).1 = .ok () := by decide +kernel
    rw [← hok]
    exact (Prod.eta _).symm
  have hwhole : (placedOnce.appendCut orders [placed, placed] 168).2.wholeHeaders orders =
      2 := by decide +kernel
  have hxs := Appended.step (r := orders) (s := orders) .refl hrun
  obtain ⟨⟨k, -, hk, -, hread⟩, -⟩ :=
    readAll_midway vacant_blank TypeCache.sound_empty hxs (Prod.eta _).symm
  rw [hwhole] at hk
  have hone : k = 1 := Nat.add_left_cancel hk.symm
  subst hone
  refine ⟨hwhole, hread ?_⟩
  decide

/-- An event whose type name is longer than the buffer it is stored in. -/
def lengthy : Event := ⟨⟨5, 0⟩, String.ofList (List.replicate 65 'a'), [1]⟩

/-- A type name that does not fit does not come back whole. -/
theorem readAll_midway_ne_of_lengthy :
    blank.disk.Vacant blank.base ∧ Appended orders blank [] blank ∧
      (blank.appendCut orders [lengthy, placed] 167).2.wholeHeaders orders = 0 + 1 ∧
      (blank.appendCut orders [lengthy, placed] 167).2.readAll orders none none false ≠
        .ok ([] ++ [lengthy, placed].take 1) :=
  ⟨vacant_blank, .refl, by decide +kernel, by decide +kernel⟩

end StreamStore.Archive
