import Mathlib.Data.List.Infix
import StreamStore.Proofs.Storage.Crash

/-!
# Appends that are cancelled

An append looks at its token before each record of the data file, and then before
each record of the headers file.  Where the token is found cancelled among the data
records, no header is written, and the records that are there already stay in the
data file with no header to describe them.  Where it is found cancelled among the
headers, those before stay, and so do their events.
-/

namespace StreamStore

/-! ## Writing under a token -/

namespace DataFile

variable {d d' : Disk} {base : Path} {s : StreamId} {cache cache' : TypeCache}
  {events : List Event} {patience : Patience}

theorem length_le_length_flatMap_record (events : List Event) :
    events.length * maxEventTypeLength ≤ (events.flatMap record).length := by
  induction events with
  | nil => exact Nat.le_of_eq (Nat.zero_mul _)
  | cons e events ih =>
      rw [List.flatMap_cons, List.length_append, length_record, List.length_cons, Nat.succ_mul]
      omega

/-- Whatever an append to the data file comes to, it puts some bytes behind those that
are there. -/
theorem append_behind (h : d.Rooted base)
    (htype : d.node? (Extent.typeDirectory base s.type) = some .directory)
    (hcache : cache.Sound) {written : Except StorageFault (List HeaderRecord × Patience)}
    (hrun : append d (Extent.ofStream base s) cache events patience = (written, d', cache')) :
    cache'.Sound ∧ d'.Rooted base ∧
      Disk.AgreeOff (· = (Extent.ofStream base s).data) d d' ∧
      ∃ behind, behind.length ≤
          Disk.maxFile - (d.bytesAt (Extent.ofStream base s).data).length ∧
        d'.node? (Extent.ofStream base s).data =
          some (.file (d.bytesAt (Extent.ofStream base s).data ++ behind)) := by
  have hfile := Extent.isFileOf_data base s
  obtain ⟨d₁, hopen, hrooted₁, -, hagree₁⟩ := h.openForWriting_file hfile htype
  have htype₁ : d₁.node? (Extent.typeDirectory base s.type) = some .directory := by
    rw [hagree₁ _ (hfile.ne_typeDirectory s.type).symm, htype]
  simp only [append, hopen, Prod.mk.injEq] at hrun
  obtain ⟨-, rfl, rfl⟩ := hrun
  obtain ⟨hrooted₂, hnode₂, hagree₂⟩ := hrooted₁.extend_file hfile htype₁
    (d.bytesAt (Extent.ofStream base s).data)
    (layOut patience (d.bytesAt (Extent.ofStream base s).data).length cache events).1.bytes
  exact ⟨cache_sound_layOut hcache _ _ _, hrooted₂, hagree₁.trans hagree₂, _,
    List.length_take_le _ _, hnode₂⟩

/-- An append to the data file that is cancelled found its token cancelled among the
records. -/
theorem after_of_append_cancelled (h : d.Rooted base)
    (htype : d.node? (Extent.typeDirectory base s.type) = some .directory)
    (hrun : append d (Extent.ofStream base s) cache events patience =
      (.error .cancelled, d', cache')) :
    patience.after events.length = none := by
  obtain ⟨d₁, hopen, -⟩ := h.openForWriting_file (Extent.isFileOf_data base s) htype
  simp only [append, hopen, Prod.mk.injEq] at hrun
  obtain ⟨hwritten, -⟩ := hrun
  generalize hlaid : layOut patience (d.bytesAt (Extent.ofStream base s).data).length cache
    events = laidOut at hwritten
  obtain ⟨laid, result⟩ := laidOut
  apply after_of_layOut_cancelled
  rw [hlaid]
  simp only at hwritten
  split at hwritten
  · cases result with
    | error fault =>
        cases hwritten
        rfl
    | ok left => cases hwritten
  · cases hwritten

/-- Where there is room for all records and every payload fits, an append to the data
file comes to its end unless its token is found cancelled. -/
theorem append_fst_of_fits (h : d.Rooted base)
    (htype : d.node? (Extent.typeDirectory base s.type) = some .directory)
    (hcache : cache.Sound) (hpayload : ∀ e ∈ events, e.data.length ≤ maxPayload)
    (hroom : (events.flatMap record).length ≤
      Disk.maxFile - (d.bytesAt (Extent.ofStream base s).data).length)
    (patience : Patience) :
    (∃ headers left, patience.after events.length = some left ∧
        (append d (Extent.ofStream base s) cache events patience).1 = .ok (headers, left)) ∨
      patience.after events.length = none ∧
        (append d (Extent.ofStream base s) cache events patience).1 = .error .cancelled := by
  obtain ⟨d₁, hopen, -⟩ := h.openForWriting_file (Extent.isFileOf_data base s) htype
  have hprefix := layOut_bytes_prefix hcache patience
    (d.bytesAt (Extent.ofStream base s).data).length events
  have hresult := layOut_snd_of_fits hpayload patience
    (d.bytesAt (Extent.ofStream base s).data).length cache
  generalize hlaid : layOut patience (d.bytesAt (Extent.ofStream base s).data).length cache
    events = laidOut at hprefix hresult
  obtain ⟨laid, result⟩ := laidOut
  have hfits : laid.bytes.length ≤
      Disk.maxFile - (d.bytesAt (Extent.ofStream base s).data).length :=
    Nat.le_trans hprefix.length_le hroom
  simp only at hresult
  subst hresult
  simp only [append, hopen, hlaid, Disk.extend, if_pos hfits]
  cases patience.after events.length with
  | none => exact Or.inr ⟨rfl, rfl⟩
  | some left => exact Or.inl ⟨_, left, rfl, rfl⟩

end DataFile

/-- An append to the headers file puts those before the look that finds the token
cancelled behind what is there, as far as there is room. -/
theorem HeadersFile.append_eq {d : Disk} {base : Path} {s : StreamId} (h : d.Rooted base)
    (htype : d.node? (Extent.typeDirectory base s.type) = some .directory)
    (headers : List HeaderRecord) (patience : Patience) {written : Bytes}
    (hwritten : written =
      (headers.take (patience.upTo headers.length)).flatMap HeaderRecord.encode) :
    ∃ d', append d (Extent.ofStream base s) headers patience =
        (if written.length ≤
            Disk.maxFile - (d.bytesAt (Extent.ofStream base s).headers).length then
          if (patience.after headers.length).isSome then .ok () else .error .cancelled
        else .error (.io (.disk .fileTooLarge)), d') ∧
      d'.Rooted base ∧
      d'.node? (Extent.ofStream base s).headers = some (.file
        (d.bytesAt (Extent.ofStream base s).headers ++ written.take
          (Disk.maxFile - (d.bytesAt (Extent.ofStream base s).headers).length))) ∧
      Disk.AgreeOff (· = (Extent.ofStream base s).headers) d d' := by
  have hfile := Extent.isFileOf_headers base s
  obtain ⟨d₁, hopen, hrooted₁, -, hagree₁⟩ := h.openForWriting_file hfile htype
  have htype₁ : d₁.node? (Extent.typeDirectory base s.type) = some .directory := by
    rw [hagree₁ _ (hfile.ne_typeDirectory s.type).symm, htype]
  obtain ⟨hrooted₂, hnode₂, hagree₂⟩ := hrooted₁.extend_file hfile htype₁
    (d.bytesAt (Extent.ofStream base s).headers) written
  refine ⟨_, ?_, hrooted₂, hnode₂, hagree₁.trans hagree₂⟩
  simp only [append, hopen, layOut_eq, ← hwritten, Disk.extend]
  by_cases hroom : written.length ≤
      Disk.maxFile - (d.bytesAt (Extent.ofStream base s).headers).length
  · simp only [if_pos hroom]
  · simp only [if_neg hroom]

/-! ## Whole appends -/

namespace Archive

/-- What an append of some events to a stream makes of the stream's files, by its
outcome. -/
inductive Came (a : Archive) (s : StreamId) (events : List Event) (patience : Patience)
    (d : Disk) : Except StorageFault Unit → Prop
  /-- It ended among the records, and some bytes are behind those of the data file. -/
  | amongRecords {fault : StorageFault} {behind : Bytes}
      (hcancelled : fault = .cancelled → patience.after events.length = none)
      (hfits : (∀ e ∈ events, e.data.length ≤ DataFile.maxPayload) →
        (events.flatMap DataFile.record).length ≤
          Disk.maxFile - (a.disk.bytesAt (a.extent s).data).length → fault = .cancelled)
      (hheaders : d.node? (a.extent s).headers = a.disk.node? (a.extent s).headers)
      (hdata : d.node? (a.extent s).data =
        some (.file (a.disk.bytesAt (a.extent s).data ++ behind)))
      (hroom : behind.length ≤ Disk.maxFile - (a.disk.bytesAt (a.extent s).data).length) :
      Came a s events patience d (.error fault)
  /-- All records are written, and the headers before the look that found the token
  cancelled, as far as there is room. -/
  | amongHeaders {left : Patience} {written : Bytes}
      (hafter : patience.after events.length = some left)
      (hpayload : ∀ e ∈ events, e.data.length ≤ DataFile.maxPayload)
      (hroom : (events.flatMap DataFile.record).length ≤
        Disk.maxFile - (a.disk.bytesAt (a.extent s).data).length)
      (hdata : d.node? (a.extent s).data = some (.file
        (a.disk.bytesAt (a.extent s).data ++ events.flatMap DataFile.record)))
      (hwritten : written = ((DataFile.headersFrom
        (a.disk.bytesAt (a.extent s).data).length events).take
          (left.upTo events.length)).flatMap HeaderRecord.encode)
      (hheaders : d.node? (a.extent s).headers = some (.file
        (a.disk.bytesAt (a.extent s).headers ++ written.take
          (Disk.maxFile - (a.disk.bytesAt (a.extent s).headers).length)))) :
      Came a s events patience d
        (if written.length ≤
            Disk.maxFile - (a.disk.bytesAt (a.extent s).headers).length then
          if (left.after events.length).isSome then .ok () else .error .cancelled
        else .error (.io (.disk .fileTooLarge)))

variable {a a' : Archive} {s : StreamId} {events : List Event} {patience : Patience}
  {result : Except StorageFault Unit}

theorem Came.extended {d : Disk} (h : a.Came s events patience d result) :
    Extent.Extended a.disk d a.base s events := by
  cases h with
  | amongRecords hcancelled hfits hheaders hdata hroom => exact .data hheaders hdata hroom
  | @amongHeaders left written hafter hpayload hroom hdata hwritten hheaders =>
      refine .headers hpayload hroom hdata hheaders ((List.take_prefix _ _).trans ?_)
      rw [hwritten]
      exact List.IsPrefix.flatMap (List.take_prefix _ _) _

/-- An append writes to the places of its stream alone, first records and then
headers. -/
theorem Sound.came_append (h : a.Sound) (hne : events ≠ [])
    (hrun : a.append s events patience = (result, a')) :
    a'.base = a.base ∧ a'.Sound ∧
      Disk.AgreeOff (Extent.IsPlaceOf a.base s) a.disk a'.disk ∧
      a.Came s events patience a'.disk result := by
  have hfile := Extent.isFileOf_headers a.base s
  have hfile' := Extent.isFileOf_data a.base s
  obtain ⟨d₁, hprepare, hrooted₁, htype₁, hagree₁⟩ := h.rooted.prepare_extent s
  have hdata₁ : d₁.bytesAt (Extent.ofStream a.base s).data =
      a.disk.bytesAt (Extent.ofStream a.base s).data :=
    Disk.bytesAt_congr (hagree₁ _ (hfile'.ne_typeDirectory s.type))
  rw [Archive.append, if_neg (by simp [hne])] at hrun
  simp only [hprepare] at hrun
  generalize hfirst : DataFile.append d₁ (Extent.ofStream a.base s) a.cache events patience =
    first at hrun
  obtain ⟨outcome, d₂, cache⟩ := first
  obtain ⟨hsound, hrooted₂, hagree₂, behind, hbehind, hnode₂⟩ :=
    DataFile.append_behind hrooted₁ htype₁ h.cache_sound hfirst
  have hheaders₂ : d₂.node? (Extent.ofStream a.base s).headers =
      a.disk.node? (Extent.ofStream a.base s).headers := by
    rw [hagree₂ _ (Extent.headers_ne_data a.base s s),
      hagree₁ _ (hfile.ne_typeDirectory s.type)]
  have hplaces₂ : Disk.AgreeOff (Extent.IsPlaceOf a.base s) a.disk d₂ :=
    (hagree₁.mono fun q hq => Or.inl hq).trans (hagree₂.mono fun q hq => Or.inr (Or.inr hq))
  have hfits := fun (hpayload : ∀ e ∈ events, e.data.length ≤ DataFile.maxPayload) hroom =>
    DataFile.append_fst_of_fits hrooted₁ htype₁ h.cache_sound hpayload hroom patience
  rw [hfirst] at hfits
  cases outcome with
  | error fault =>
      cases hrun
      rw [hdata₁] at hbehind hnode₂ hfits
      refine ⟨rfl, ⟨hrooted₂, hsound⟩, hplaces₂, .amongRecords ?_ ?_ hheaders₂ hnode₂ hbehind⟩
      · rintro rfl
        exact DataFile.after_of_append_cancelled hrooted₁ htype₁ hfirst
      · intro hpayload hroom
        rcases hfits hpayload hroom with ⟨headers, left, -, hok⟩ | ⟨-, hcancelled⟩
        · cases hok
        · cases hcancelled
          rfl
  | ok found =>
      obtain ⟨headers, left⟩ := found
      obtain ⟨hheaders, -, hpayload, hroom, -, hdata₂, -⟩ :=
        DataFile.append_eq_ok hrooted₁ htype₁ h.cache_sound hfirst
      have hafter : patience.after events.length = some left := by
        rcases hfits hpayload hroom with ⟨headers', left', hafter, hok⟩ | ⟨-, hcancelled⟩
        · cases hok
          exact hafter
        · cases hcancelled
      rw [hdata₁] at hheaders hroom hdata₂
      have hlength : headers.length = events.length := by
        rw [hheaders, DataFile.length_headersFrom]
      have htype₂ : d₂.node? (Extent.typeDirectory a.base s.type) = some .directory := by
        rw [hagree₂ _ (hfile'.ne_typeDirectory s.type).symm, htype₁]
      obtain ⟨d₃, hthird, hrooted₃, hnode₃, hagree₃⟩ :=
        HeadersFile.append_eq hrooted₂ htype₂ headers left rfl
      have hdata₃ := (hagree₃ _ (Extent.headers_ne_data a.base s s).symm).trans hdata₂
      simp only [hthird] at hrun
      cases hrun
      rw [hlength, Disk.bytesAt_congr hheaders₂] at hnode₃ ⊢
      exact ⟨rfl, ⟨hrooted₃, hsound⟩,
        hplaces₂.trans (hagree₃.mono fun q hq => Or.inr (Or.inl hq)),
        .amongHeaders hafter hpayload hroom hdata₃ (by rw [hheaders]; rfl) hnode₃⟩

/-- However an append ends, it put bytes behind those of the data file, and headers only
behind all records. -/
theorem Sound.tried_append (h : a.Sound) (hne : events ≠ [])
    (hrun : a.append s events patience = (result, a')) : a.Tried s events a' := by
  obtain ⟨hbase, hsound, hagree, hcame⟩ := h.came_append hne hrun
  exact ⟨hbase, hsound, hagree, hcame.extended⟩

end Archive

end StreamStore
