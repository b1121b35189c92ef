import StreamStore.Proofs.Storage.Cancelling
import StreamStore.Proofs.Storage.Twins

/-!
# Events cut into batches

Events that go to a stream batch by batch leave the same bytes in the stream's files, however they
are cut into batches.  Within a batch the offsets are counted on, and the next batch takes up at
the length that the data file has by then; both tell how many bytes come before a record.  So the
headers are the same as well, whichever type names are remembered from one batch to the next.
-/

namespace StreamStore.Archive

variable {a b c d : Archive} {s : StreamId} {events later : List Event}
  {batch : List Event} {batches batches' : List (List Event)}
  {headers headers' answer : List HeaderRecord} {patience : Patience}

/-! ## What appends add -/

/-- Two completed appends add the events of both. -/
theorem Added.trans (h : a.Added s events b) (h' : b.Added s later c) :
    a.Added s (events ++ later) c := by
  obtain ⟨base, disk, cache, n⟩ := b
  obtain ⟨rfl, -, -, hagree, hpayload, hroom, hheadersRoom, hdata, hheaders⟩ := h
  obtain ⟨hbase', hrooted', hcache', hagree', hpayload', hroom', hheadersRoom', hdata',
    hheaders'⟩ := h'
  simp only [extent] at hroom' hheadersRoom' hdata' hheaders'
  simp only [extent] at hroom hheadersRoom hdata hheaders
  rw [Disk.bytesAt_eq hdata, List.length_append] at hroom'
  rw [Disk.bytesAt_eq hheaders, List.length_append, HeaderRecord.length_flatMap_encode,
    DataFile.length_headersFrom] at hheadersRoom'
  rw [Disk.bytesAt_eq hdata, List.append_assoc, ← List.flatMap_append] at hdata'
  rw [Disk.bytesAt_eq hdata, Disk.bytesAt_eq hheaders, List.append_assoc, List.length_append,
    ← List.flatMap_append, ← DataFile.headersFrom_append] at hheaders'
  refine ⟨hbase', hrooted', hcache', hagree.trans hagree', ?_, ?_, ?_, hdata', hheaders'⟩
  · exact List.forall_mem_append.mpr ⟨hpayload, hpayload'⟩
  · rw [extent, List.flatMap_append, List.length_append]
    omega
  · rw [extent, List.length_append, Nat.add_mul]
    omega

theorem Added.sound (h : a.Added s events b) : b.Sound := by
  have hrooted := h.rooted
  rw [← h.base_eq] at hrooted
  exact ⟨hrooted, h.cache_sound⟩

/-- What an append adds to the files is settled by what was there. -/
theorem Added.alike (h : a.Added s events b) (h' : a.Added s events c) : Alike s b c := by
  refine ⟨h'.base_eq.trans h.base_eq.symm, h.sound, h'.sound, fun p hp => ?_⟩
  rw [h.base_eq] at hp
  rcases hp with rfl | rfl
  · exact h'.headers_node.trans h.headers_node.symm
  · exact h'.data_node.trans h.data_node.symm

/-- An append that completes in an archive with the same files completes here, too. -/
theorem Alike.exists_append (h : Alike s b c)
    (hrun : c.append s events patience = (.ok (), d)) :
    ∃ e, b.append s events patience = (.ok (), e) ∧ Alike s e d := by
  obtain ⟨hresult, halike⟩ := h.append events patience
  rw [hrun] at hresult halike
  exact ⟨(b.append s events patience).2, Prod.ext hresult.symm rfl, halike⟩

/-! ## What the data file answers -/

/-- The headers with which the data file of a stream answers an append. -/
def dataHeaders (a : Archive) (s : StreamId) (events : List Event) (patience : Patience) :
    Except StorageFault (List HeaderRecord) :=
  match Extent.prepare a.disk a.base s with
  | .error fault => .error fault
  | .ok (extent, disk) =>
    (DataFile.append disk extent a.cache events patience).1.map fun (headers, _) => headers

/-- The answer describes the events by the offsets of their records. -/
theorem Sound.eq_of_dataHeaders (h : a.Sound)
    (hanswer : a.dataHeaders s events patience = .ok headers) :
    headers = DataFile.headersFrom (a.disk.bytesAt (a.extent s).data).length events := by
  obtain ⟨d₁, hprepare, hrooted₁, htype₁, hagree₁⟩ := h.rooted.prepare_extent s
  have hdata₁ : d₁.bytesAt (Extent.ofStream a.base s).data =
      a.disk.bytesAt (Extent.ofStream a.base s).data :=
    Disk.bytesAt_congr (hagree₁ _ ((Extent.isFileOf_data a.base s).ne_typeDirectory s.type))
  simp only [dataHeaders, hprepare] at hanswer
  generalize hfirst : DataFile.append d₁ (Extent.ofStream a.base s) a.cache events patience =
    first at hanswer
  obtain ⟨written, d₂, cache⟩ := first
  cases written with
  | error fault => cases hanswer
  | ok found =>
      cases hanswer
      obtain ⟨hheaders, -⟩ := DataFile.append_eq_ok hrooted₁ htype₁ h.cache_sound hfirst
      rw [hdata₁] at hheaders
      exact hheaders

/-- Every append that completes was answered by the data file. -/
theorem Sound.exists_dataHeaders (h : a.Sound)
    (hrun : a.append s events patience = (.ok (), b)) :
    ∃ headers, a.dataHeaders s events patience = .ok headers := by
  obtain ⟨d₁, hprepare, hrooted₁, htype₁, -⟩ := h.rooted.prepare_extent s
  simp only [dataHeaders, hprepare]
  by_cases hne : events = []
  · subst hne
    have hpayload : ∀ e ∈ ([] : List Event), e.data.length ≤ DataFile.maxPayload := by simp
    rcases DataFile.append_fst_of_fits hrooted₁ htype₁ h.cache_sound hpayload (Nat.zero_le _)
      patience with ⟨headers, left, -, hok⟩ | ⟨hafter, -⟩
    · exact ⟨headers, congrArg (Except.map _) hok⟩
    · rw [List.length_nil, Patience.after_zero] at hafter
      cases hafter
  · rw [Archive.append, if_neg (by simp [hne])] at hrun
    simp only [hprepare] at hrun
    generalize DataFile.append d₁ (Extent.ofStream a.base s) a.cache events patience = first
      at hrun ⊢
    obtain ⟨written, d₂, cache⟩ := first
    cases written with
    | error fault => cases hrun
    | ok found => exact ⟨found.1, rfl⟩

/-! ## What was added so far -/

/-- Some events, and no others, were added to a stream since an archive was as given; all but the
stream's files may have changed as well. -/
inductive Grown (s : StreamId) (a : Archive) (events : List Event) (c : Archive) : Prop
  | same (hnil : events = []) (halike : Alike s a c)
  | added {b : Archive} (hne : events ≠ []) (hadded : a.Added s events b) (halike : Alike s b c)

namespace Grown

theorem sound (h : Grown s a events c) : c.Sound := by
  cases h with
  | same hnil halike => exact halike.sound'
  | added hne hadded halike => exact halike.sound'

theorem base_eq (h : Grown s a events c) : c.base = a.base := by
  cases h with
  | same hnil halike => exact halike.base_eq
  | added hne hadded halike => exact halike.base_eq.trans hadded.base_eq

theorem of_alike (h : Grown s a events c) (halike : Alike s c d) : Grown s a events d := by
  cases h with
  | same hnil halike' => exact .same hnil (halike'.trans halike)
  | added hne hadded halike' => exact .added hne hadded (halike'.trans halike)

/-- What was added settles what the stream's files are. -/
theorem alike (h : Grown s a events c) (h' : Grown s a events d) : Alike s c d := by
  cases h with
  | same hnil halike =>
      cases h' with
      | same _ halike' => exact halike.symm.trans halike'
      | added hne => exact absurd hnil hne
  | added hne hadded halike =>
      cases h' with
      | same hnil => exact absurd hnil hne
      | added _ hadded' halike' =>
          exact halike.symm.trans ((hadded.alike hadded').trans halike')

/-- A completed append adds its events to those that were added before. -/
theorem append (h : Grown s a events c) (hrun : c.append s later patience = (.ok (), d)) :
    Grown s a (events ++ later) d := by
  by_cases hlater : later = []
  · subst hlater
    cases hrun
    rw [List.append_nil]
    exact h
  · have hne : events ++ later ≠ [] := List.append_ne_nil_of_right_ne_nil events hlater
    cases h with
    | same hnil halike =>
        subst hnil
        obtain ⟨e, hrun', halike'⟩ := halike.exists_append hrun
        exact .added hne
          (added_of_append halike.sound.rooted halike.sound.cache_sound hlater hrun') halike'
    | added _ hadded halike =>
        obtain ⟨e, hrun', halike'⟩ := halike.exists_append hrun
        exact .added hne (hadded.trans
          (added_of_append halike.sound.rooted halike.sound.cache_sound hlater hrun')) halike'

theorem bytesAt_data (h : Grown s a events c) : c.disk.bytesAt (c.extent s).data =
    a.disk.bytesAt (a.extent s).data ++ events.flatMap DataFile.record := by
  cases h with
  | same hnil halike =>
      rw [hnil, List.flatMap_nil, List.append_nil, extent, halike.base_eq]
      exact Disk.bytesAt_congr (halike.same _ (Extent.isFileOf_data a.base s))
  | @added b hne hadded halike =>
      rw [extent, halike.base_eq,
        Disk.bytesAt_congr (halike.same _ (Extent.isFileOf_data b.base s)), hadded.base_eq]
      exact Disk.bytesAt_eq hadded.data_node

theorem length_bytesAt_headers (h : Grown s a events c) :
    (c.disk.bytesAt (c.extent s).headers).length =
      (a.disk.bytesAt (a.extent s).headers).length + events.length * HeaderRecord.size := by
  cases h with
  | same hnil halike =>
      rw [hnil, List.length_nil, Nat.zero_mul, Nat.add_zero, extent, halike.base_eq]
      exact congrArg _ (Disk.bytesAt_congr (halike.same _ (Extent.isFileOf_headers a.base s)))
  | @added b hne hadded halike =>
      rw [extent, halike.base_eq,
        Disk.bytesAt_congr (halike.same _ (Extent.isFileOf_headers b.base s)), hadded.base_eq]
      have hnode := hadded.headers_node
      rw [extent] at hnode
      rw [Disk.bytesAt_eq hnode, List.length_append, HeaderRecord.length_flatMap_encode,
        DataFile.length_headersFrom, extent]

/-- What was added could be added at once. -/
theorem exists_append (h : Grown s a events c) (hsound : a.Sound) :
    ∃ d, a.append s events none = (.ok (), d) := by
  cases h with
  | same hnil halike => exact ⟨a, by rw [hnil]; rfl⟩
  | added hne hadded halike =>
      exact hsound.exists_append hadded.payload hadded.room hadded.headers_room

end Grown

/-! ## Cuts into batches -/

/-- Batches of events come to a stream by completed appends, one after another, which the data file
answers with these headers.  In between, all but the stream's files may change, as do the type
names that are remembered. -/
inductive Batched (s : StreamId) (a : Archive) :
    List (List Event) → List HeaderRecord → Archive → Prop
  | refl : Batched s a [] [] a
  | other {batches : List (List Event)} {headers : List HeaderRecord} {b c : Archive}
      (hbefore : Batched s a batches headers b) (halike : Alike s b c) :
      Batched s a batches headers c
  | step {batches : List (List Event)} {batch : List Event}
      {headers answer : List HeaderRecord} {b c : Archive} {patience : Patience}
      (hbefore : Batched s a batches headers b)
      (hrun : b.append s batch patience = (.ok (), c))
      (hanswer : b.dataHeaders s batch patience = .ok answer) :
      Batched s a (batches ++ [batch]) (headers ++ answer) c

/-- Batches that come to a stream add their events, and the answers together describe these by
the offsets of their records. -/
theorem Batched.grown (hsound : a.Sound) (h : Batched s a batches headers b) :
    Grown s a batches.flatten b ∧
      headers = DataFile.headersFrom (a.disk.bytesAt (a.extent s).data).length
        batches.flatten := by
  induction h with
  | refl => exact ⟨.same rfl (.refl hsound s), rfl⟩
  | other hbefore halike ih => exact ⟨ih.1.of_alike halike, ih.2⟩
  | step hbefore hrun hanswer ih =>
      obtain ⟨hgrown, rfl⟩ := ih
      rw [hgrown.sound.eq_of_dataHeaders hanswer, hgrown.bytesAt_data, List.length_append,
        ← DataFile.headersFrom_append, List.flatten_concat]
      exact ⟨hgrown.append hrun, rfl⟩

/-- Where there is room for all, every cut into batches can be carried out. -/
theorem Sound.exists_batched (h : a.Sound) (batches : List (List Event))
    (hpayload : ∀ e ∈ batches.flatten, e.data.length ≤ DataFile.maxPayload)
    (hroom : (batches.flatten.flatMap DataFile.record).length ≤
      Disk.maxFile - (a.disk.bytesAt (a.extent s).data).length)
    (hheadersRoom : batches.flatten.length * HeaderRecord.size ≤
      Disk.maxFile - (a.disk.bytesAt (a.extent s).headers).length) :
    ∃ headers b, Batched s a batches headers b := by
  induction batches using List.reverseRecOn with
  | nil => exact ⟨[], a, .refl⟩
  | append_singleton batches batch ih =>
      rw [List.flatten_concat] at hpayload hroom hheadersRoom
      rw [List.flatMap_append, List.length_append] at hroom
      rw [List.length_append, Nat.add_mul] at hheadersRoom
      obtain ⟨hpayloads, hpayload⟩ := List.forall_mem_append.mp hpayload
      obtain ⟨headers, b, hbefore⟩ := ih hpayloads (by omega) (by omega)
      obtain ⟨hgrown, -⟩ := hbefore.grown h
      obtain ⟨c, hrun⟩ := hgrown.sound.exists_append (s := s) hpayload
        (by rw [hgrown.bytesAt_data, List.length_append]; omega)
        (by rw [hgrown.length_bytesAt_headers]; omega)
      obtain ⟨answer, hanswer⟩ := hgrown.sound.exists_dataHeaders hrun
      exact ⟨headers ++ answer, c, .step hbefore hrun hanswer⟩

/-- Every other cut of what came to a stream can be carried out, too. -/
theorem Batched.exists_recut (hsound : a.Sound) (h : Batched s a batches headers b)
    (hsame : batches'.flatten = batches.flatten) :
    ∃ headers' b', Batched s a batches' headers' b' := by
  obtain ⟨hgrown, -⟩ := h.grown hsound
  rw [← hsame] at hgrown
  cases hgrown with
  | same hnil =>
      exact hsound.exists_batched batches' (by simp [hnil]) (by simp [hnil]) (by simp [hnil])
  | added hne hadded =>
      exact hsound.exists_batched batches' hadded.payload hadded.room hadded.headers_room

/-- How events are cut into batches leaves no trace. -/
structure Uncut (s : StreamId) (a : Archive) (batches : List (List Event))
    (headers : List HeaderRecord) (b : Archive) : Prop where
  /-- The answers together are the answer to all events at once. -/
  whole_answer : a.dataHeaders s batches.flatten none = .ok headers
  /-- All events at once leave the same files. -/
  whole_files : ∃ c, a.append s batches.flatten none = (.ok (), c) ∧
    c.disk.node? (a.extent s).headers = b.disk.node? (a.extent s).headers ∧
    c.disk.node? (a.extent s).data = b.disk.node? (a.extent s).data
  exists_recut : ∀ batches', batches'.flatten = batches.flatten →
    ∃ headers' b', Batched s a batches' headers' b'
  /-- The answers to any other cut are the same together, and so are the files that it leaves. -/
  recut : ∀ batches' headers' b', batches'.flatten = batches.flatten →
    Batched s a batches' headers' b' → headers' = headers ∧
      b'.disk.node? (a.extent s).headers = b.disk.node? (a.extent s).headers ∧
      b'.disk.node? (a.extent s).data = b.disk.node? (a.extent s).data
  /-- The data file answers every further append that completes. -/
  answered : ∀ batch patience c, b.append s batch patience = (.ok (), c) →
    ∃ answer, b.dataHeaders s batch patience = .ok answer

/-- Whatever the files of a stream hold at first, they come to the same bytes however the events
that come to the stream are cut into batches, and the data file answers with the same headers. -/
theorem uncut_of_batched (hsound : a.Sound) (h : Batched s a batches headers b) :
    Uncut s a batches headers b := by
  obtain ⟨hgrown, hheaders⟩ := h.grown hsound
  have hfiles : ∀ c, Grown s a batches.flatten c →
      c.disk.node? (a.extent s).headers = b.disk.node? (a.extent s).headers ∧
        c.disk.node? (a.extent s).data = b.disk.node? (a.extent s).data := by
    intro c hgrown'
    have hsame := (hgrown.alike hgrown').same
    rw [hgrown.base_eq] at hsame
    exact ⟨hsame _ (Extent.isFileOf_headers a.base s), hsame _ (Extent.isFileOf_data a.base s)⟩
  obtain ⟨c, hwhole⟩ := hgrown.exists_append hsound
  constructor
  · obtain ⟨answer, hanswer⟩ := hsound.exists_dataHeaders hwhole
    rw [hanswer, hsound.eq_of_dataHeaders hanswer, hheaders]
  · refine ⟨c, hwhole, hfiles c ?_⟩
    exact (Grown.same rfl (.refl hsound s)).append hwhole
  · intro batches' hsame
    exact h.exists_recut hsound hsame
  · intro batches' headers' b' hsame h'
    obtain ⟨hgrown', hheaders'⟩ := h'.grown hsound
    rw [hsame] at hgrown' hheaders'
    exact ⟨hheaders'.trans hheaders.symm, hfiles b' hgrown'⟩
  · intro batch patience c hrun
    exact hgrown.sound.exists_dataHeaders hrun

/-- An archive with a stream whose headers file has nothing but ten bytes of a record, and whose
data file has a record that no header describes. -/
def disordered : Archive := (blank.appendCut orders [placed] 76).2

/-- Behind such files, three events in two batches and an empty one get the offsets that they get
at once. -/
theorem uncut_of_disordered :
    ∃ headers b, Batched orders disordered [[placed], [], [placed, placed]] headers b ∧
      headers.map HeaderRecord.dataOffset = [66, 132, 198] ∧
      Uncut orders disordered [[placed], [], [placed, placed]] headers b := by
  have hsound : disordered.Sound :=
    ((Alike.refl ⟨vacant_blank.rooted, TypeCache.sound_empty⟩ orders).appendCut [placed] 76).2.sound
  obtain ⟨headers, b, hbatched⟩ := hsound.exists_batched (s := orders)
    [[placed], [], [placed, placed]] (by decide) (by decide +kernel) (by decide +kernel)
  have huncut := uncut_of_batched hsound hbatched
  refine ⟨headers, b, hbatched, ?_, huncut⟩
  have hoffsets : (disordered.dataHeaders orders [placed, placed, placed] none).toOption.map
      (fun headers => headers.map HeaderRecord.dataOffset) = some [66, 132, 198] := by
    decide +kernel
  have hanswer := huncut.whole_answer
  simp only [List.flatten_cons, List.flatten_nil, List.singleton_append, List.nil_append,
    List.append_nil] at hanswer
  rw [hanswer] at hoffsets
  exact Option.some.inj hoffsets

end StreamStore.Archive
