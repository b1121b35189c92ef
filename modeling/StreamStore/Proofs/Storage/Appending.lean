import Mathlib.Data.List.Forall2
import StreamStore.Proofs.Storage.Tokens

/-!
# Completed appends and removals

A completed append writes the records of its events behind what the data file
holds and their headers behind what the headers file holds, whether or not those
end with a torn record.  So it adds its events to what is stored where there is
no torn record.  A completed removal leaves nothing stored.  Neither changes
what is stored for another stream.
-/

namespace StreamStore

namespace DataFile

variable {d d' : Disk} {base : Path} {s : StreamId}

/-- A completed append to the data file puts all records behind what is there. -/
theorem append_eq_ok (h : d.Rooted base)
    (htype : d.node? (Extent.typeDirectory base s.type) = some .directory)
    {cache cache' : TypeCache} (hcache : cache.Sound)
    {events : List Event} {headers : List HeaderRecord} {patience patience' : Patience}
    (hrun : append d (Extent.ofStream base s) cache events patience =
      (.ok (headers, patience'), d', cache')) :
    headers = headersFrom (d.bytesAt (Extent.ofStream base s).data).length events ∧
      cache'.Sound ∧ (∀ e ∈ events, e.data.length ≤ maxPayload) ∧
      (events.flatMap record).length ≤
        Disk.maxFile - (d.bytesAt (Extent.ofStream base s).data).length ∧
      d'.Rooted base ∧
      d'.node? (Extent.ofStream base s).data = some (.file
        (d.bytesAt (Extent.ofStream base s).data ++ events.flatMap record)) ∧
      Disk.AgreeOff (· = (Extent.ofStream base s).data) d d' := by
  have hfile := Extent.isFileOf_data base s
  obtain ⟨d₁, hopen, hrooted₁, hnode₁, hagree₁⟩ := h.openForWriting_file hfile htype
  have htype₁ : d₁.node? (Extent.typeDirectory base s.type) = some .directory := by
    rw [hagree₁ _ (hfile.ne_typeDirectory s.type).symm, htype]
  simp only [append, hopen] at hrun
  generalize hlaid : layOut patience _ cache events = laidOut at hrun
  obtain ⟨laid, result⟩ := laidOut
  simp only at hrun
  generalize hwrite : d₁.extend (Extent.ofStream base s).data _ laid.bytes = written at hrun
  obtain ⟨outcome, d₂⟩ := written
  simp only [Prod.mk.injEq] at hrun
  obtain ⟨houtcome, rfl, rfl⟩ := hrun
  cases outcome with
  | error fault => cases houtcome
  | ok _ =>
  cases result with
  | error fault => cases houtcome
  | ok patience₁ =>
  cases houtcome
  obtain ⟨hbytes, hheaders, hsound, hpayload⟩ := layOut_eq_ok hcache hlaid
  obtain ⟨hroom, -⟩ := Disk.extend_eq_ok hwrite
  obtain ⟨hrooted₂, hnode₂, hagree₂⟩ := hrooted₁.extend_file hfile htype₁
    (d.bytesAt (Extent.ofStream base s).data) laid.bytes
  rw [hwrite] at hrooted₂ hnode₂ hagree₂
  rw [List.take_of_length_le hroom] at hnode₂
  rw [hbytes] at hroom hnode₂
  exact ⟨hheaders, hsound, hpayload, hroom, hrooted₂, hnode₂, hagree₁.trans hagree₂⟩

/-- An append to the data file completes where there is room for its records. -/
theorem exists_append (h : d.Rooted base)
    (htype : d.node? (Extent.typeDirectory base s.type) = some .directory)
    {cache : TypeCache} {events : List Event} {patience patience' : Patience} {laid : Laid}
    (hlaid : layOut patience (d.bytesAt (Extent.ofStream base s).data).length cache events =
      (laid, .ok patience'))
    (hroom : laid.bytes.length ≤
      Disk.maxFile - (d.bytesAt (Extent.ofStream base s).data).length) :
    ∃ d', append d (Extent.ofStream base s) cache events patience =
        (.ok (laid.headers, patience'), d', laid.cache) ∧
      d'.Rooted base ∧ Disk.AgreeOff (· = (Extent.ofStream base s).data) d d' := by
  have hfile := Extent.isFileOf_data base s
  obtain ⟨d₁, hopen, hrooted₁, hnode₁, hagree₁⟩ := h.openForWriting_file hfile htype
  have htype₁ : d₁.node? (Extent.typeDirectory base s.type) = some .directory := by
    rw [hagree₁ _ (hfile.ne_typeDirectory s.type).symm, htype]
  obtain ⟨hrooted₂, -, hagree₂⟩ := hrooted₁.extend_file hfile htype₁
    (d.bytesAt (Extent.ofStream base s).data) laid.bytes
  refine ⟨_, ?_, hrooted₂, hagree₁.trans hagree₂⟩
  simp only [append, hopen, hlaid, Disk.extend, if_pos hroom]
  rfl

end DataFile

/-- An append to the headers file completes where there is room for its records. -/
theorem HeadersFile.exists_append {d : Disk} {base : Path} {s : StreamId}
    (h : d.Rooted base)
    (htype : d.node? (Extent.typeDirectory base s.type) = some .directory)
    {headers : List HeaderRecord} {patience : Patience} {bytes : Bytes}
    (hlaid : layOut patience headers = (bytes, .ok ()))
    (hroom : bytes.length ≤
      Disk.maxFile - (d.bytesAt (Extent.ofStream base s).headers).length) :
    ∃ d', append d (Extent.ofStream base s) headers patience = (.ok (), d') := by
  have hfile := Extent.isFileOf_headers base s
  obtain ⟨d₁, hopen, -⟩ := h.openForWriting_file hfile htype
  simp only [append, hopen, hlaid, Disk.extend, if_pos hroom]
  exact ⟨_, rfl⟩

/-- A completed append to the headers file puts all headers behind what is there. -/
theorem HeadersFile.append_eq_ok {d d' : Disk} {base : Path} {s : StreamId}
    (h : d.Rooted base)
    (htype : d.node? (Extent.typeDirectory base s.type) = some .directory)
    {headers : List HeaderRecord} {patience : Patience}
    (hrun : append d (Extent.ofStream base s) headers patience = (.ok (), d')) :
    (headers.flatMap HeaderRecord.encode).length ≤
        Disk.maxFile - (d.bytesAt (Extent.ofStream base s).headers).length ∧
      d'.Rooted base ∧
      d'.node? (Extent.ofStream base s).headers = some (.file
        (d.bytesAt (Extent.ofStream base s).headers ++
          headers.flatMap HeaderRecord.encode)) ∧
      Disk.AgreeOff (· = (Extent.ofStream base s).headers) d d' := by
  have hfile := Extent.isFileOf_headers base s
  obtain ⟨d₁, hopen, hrooted₁, hnode₁, hagree₁⟩ := h.openForWriting_file hfile htype
  have htype₁ : d₁.node? (Extent.typeDirectory base s.type) = some .directory := by
    rw [hagree₁ _ (hfile.ne_typeDirectory s.type).symm, htype]
  simp only [append, hopen] at hrun
  generalize hlaid : layOut patience headers = laidOut at hrun
  obtain ⟨bytes, result⟩ := laidOut
  simp only at hrun
  generalize hwrite : d₁.extend (Extent.ofStream base s).headers _ bytes = written at hrun
  obtain ⟨outcome, d₂⟩ := written
  simp only [Prod.mk.injEq] at hrun
  obtain ⟨houtcome, rfl⟩ := hrun
  cases outcome with
  | error fault => cases houtcome
  | ok _ =>
  cases houtcome
  obtain ⟨hroom, -⟩ := Disk.extend_eq_ok hwrite
  obtain ⟨hrooted₂, hnode₂, hagree₂⟩ := hrooted₁.extend_file hfile htype₁
    (d.bytesAt (Extent.ofStream base s).headers) bytes
  rw [hwrite] at hrooted₂ hnode₂ hagree₂
  rw [List.take_of_length_le hroom] at hnode₂
  rw [layOut_eq_ok hlaid] at hroom hnode₂
  exact ⟨hroom, hrooted₂, hnode₂, hagree₁.trans hagree₂⟩

/-- The rows that writing to a stream may change. -/
def Extent.IsPlaceOf (base : Path) (s : StreamId) (p : Path) : Prop :=
  p = typeDirectory base s.type ∨ IsFileOf base s p

namespace Extent

variable {d d' : Disk} {base : Path} {s r : StreamId} {events : List Event} {torn : Bytes}

/-- What is stored for one stream is out of reach for writes to another. -/
theorem Stores.of_agreeOff (h : Stores d base r events torn)
    (hagree : Disk.AgreeOff (IsPlaceOf base s) d d') (hne : r ≠ s) :
    Stores d' base r events torn := by
  refine h.congr fun p hp => hagree p ?_
  rintro (hplace | hplace)
  · exact hp.ne_typeDirectory s.type hplace
  · exact hne (hp.eq hplace)

theorem Stores.length_bytesAt (h : Stores d base s events torn) :
    (d.bytesAt (ofStream base s).headers).length =
        events.length * HeaderRecord.size + torn.length ∧
      torn.length < HeaderRecord.size := by
  cases h with
  | absent hheaders hlength =>
      rw [Disk.bytesAt, hheaders]
      exact ⟨rfl, by decide⟩
  | present hheaders hdata hlength hholds htorn =>
      rw [Disk.bytesAt_eq hheaders, List.length_append, HeaderRecord.length_flatMap_encode,
        hholds.length_eq]
      exact ⟨rfl, htorn⟩

theorem Stores.length_data_le (h : Stores d base s events torn) :
    (d.bytesAt (ofStream base s).data).length ≤ Disk.maxFile := by
  rw [Disk.bytesAt]
  cases h with
  | absent hheaders hlength =>
      split
      next content hnode => exact hlength content hnode
      · exact Nat.zero_le _
  | present hheaders hdata hlength hholds htorn =>
      rw [hdata]
      exact hlength

/-- Bytes behind those of the data file change nothing that is stored. -/
theorem Stores.extend_data (h : Stores d base s events torn) {behind : Bytes}
    (hheaders' : d'.node? (ofStream base s).headers = d.node? (ofStream base s).headers)
    (hdata' : d'.node? (ofStream base s).data =
      some (.file (d.bytesAt (ofStream base s).data ++ behind)))
    (hroom : behind.length ≤ Disk.maxFile - (d.bytesAt (ofStream base s).data).length) :
    Stores d' base s events torn := by
  have hlength' : (d.bytesAt (ofStream base s).data ++ behind).length ≤ Disk.maxFile := by
    have hle := h.length_data_le
    rw [List.length_append]
    omega
  cases h with
  | absent hheaders hlength =>
      refine .absent (hheaders'.trans hheaders) fun data hnode => ?_
      rw [hdata'] at hnode
      cases hnode
      exact hlength'
  | present hheaders hdata hlength hholds htorn =>
      rw [Disk.bytesAt_eq hdata] at hdata' hlength'
      exact .present (hheaders'.trans hheaders) hdata' hlength'
        (hholds.imp fun h e hhold => hhold.append _) htorn

/-- With all records behind those of the data file, the events whose headers
are whole join those that are stored. -/
theorem Stores.extend_headers {stored : List Event} {n : Nat}
    (h : Stores d base s stored [])
    (hpayload : ∀ e ∈ events, e.data.length ≤ DataFile.maxPayload)
    (hroom : (events.flatMap DataFile.record).length ≤
      Disk.maxFile - (d.bytesAt (ofStream base s).data).length)
    (hdata' : d'.node? (ofStream base s).data = some (.file
      (d.bytesAt (ofStream base s).data ++ events.flatMap DataFile.record)))
    (hheaders' : d'.node? (ofStream base s).headers = some (.file
      (d.bytesAt (ofStream base s).headers ++
        (((DataFile.headersFrom (d.bytesAt (ofStream base s).data).length events).take
          n).flatMap HeaderRecord.encode ++ torn))))
    (htorn : torn.length < HeaderRecord.size) :
    Stores d' base s (stored ++ events.take n) torn := by
  have hlength : (d.bytesAt (ofStream base s).data ++
      events.flatMap DataFile.record).length ≤ Disk.maxFile := by
    have hle := h.length_data_le
    rw [List.length_append]
    omega
  have hnew : List.Forall₂
      (DataFile.Holds (d.bytesAt (ofStream base s).data ++ events.flatMap DataFile.record))
      ((DataFile.headersFrom (d.bytesAt (ofStream base s).data).length events).take n)
      (events.take n) :=
    List.forall₂_take _ (DataFile.forall₂_holds_append hpayload hlength)
  rw [← List.append_assoc] at hheaders'
  cases h with
  | absent hheaders₀ hlength₀ =>
      have hnone : d.bytesAt (ofStream base s).headers = [] := by
        rw [Disk.bytesAt, hheaders₀]
      rw [hnone, List.nil_append] at hheaders'
      rw [List.nil_append]
      exact .present hheaders' hdata' hlength hnew htorn
  | @present hs _ data _ hheaders₀ hdata₀ hlength₀ hholds _ =>
      have hbytes : d.bytesAt (ofStream base s).data = data := Disk.bytesAt_eq hdata₀
      have hbytes' : d.bytesAt (ofStream base s).headers = hs.flatMap HeaderRecord.encode := by
        rw [← List.append_nil (hs.flatMap HeaderRecord.encode)]
        exact Disk.bytesAt_eq hheaders₀
      rw [hbytes', ← List.flatMap_append] at hheaders'
      rw [hbytes] at hdata' hheaders' hlength hnew
      have hold : List.Forall₂
          (DataFile.Holds (data ++ events.flatMap DataFile.record)) hs stored :=
        hholds.imp fun h e hhold => hhold.append _
      exact .present hheaders' hdata' hlength (List.rel_append hold hnew) htorn

end Extent

namespace Archive

/-- What a completed append of some events to a stream makes of an archive. -/
structure Added (a : Archive) (s : StreamId) (events : List Event) (a' : Archive) :
    Prop where
  base_eq : a'.base = a.base
  rooted : a'.disk.Rooted a.base
  cache_sound : a'.cache.Sound
  agree : Disk.AgreeOff (Extent.IsPlaceOf a.base s) a.disk a'.disk
  payload : ∀ e ∈ events, e.data.length ≤ DataFile.maxPayload
  room : (events.flatMap DataFile.record).length ≤
    Disk.maxFile - (a.disk.bytesAt (a.extent s).data).length
  headers_room : events.length * HeaderRecord.size ≤
    Disk.maxFile - (a.disk.bytesAt (a.extent s).headers).length
  data_node : a'.disk.node? (a.extent s).data = some (.file
    (a.disk.bytesAt (a.extent s).data ++ events.flatMap DataFile.record))
  headers_node : a'.disk.node? (a.extent s).headers = some (.file
    (a.disk.bytesAt (a.extent s).headers ++
      (DataFile.headersFrom (a.disk.bytesAt (a.extent s).data).length events).flatMap
        HeaderRecord.encode))

variable {a a' : Archive} {s : StreamId} {events : List Event}

theorem added_of_append (hroot : a.disk.Rooted a.base) (hcache : a.cache.Sound)
    (hne : events ≠ []) {patience : Patience}
    (hrun : a.append s events patience = (.ok (), a')) : a.Added s events a' := by
  have hfile := Extent.isFileOf_headers a.base s
  have hfile' := Extent.isFileOf_data a.base s
  obtain ⟨d₁, hprepare, hrooted₁, htype₁, hagree₁⟩ := hroot.prepare_extent s
  have hdata₁ : d₁.bytesAt (Extent.ofStream a.base s).data =
      a.disk.bytesAt (Extent.ofStream a.base s).data :=
    Disk.bytesAt_congr (hagree₁ _ (hfile'.ne_typeDirectory s.type))
  rw [append, if_neg (by simp [hne])] at hrun
  simp only [hprepare] at hrun
  generalize hfirst : DataFile.append d₁ (Extent.ofStream a.base s) a.cache events patience =
    first at hrun
  obtain ⟨written, d₂, cache⟩ := first
  cases written with
  | error fault => cases hrun
  | ok found =>
  obtain ⟨headers, patience'⟩ := found
  obtain ⟨rfl, hsound, hpayload, hroom, hrooted₂, hnode₂, hagree₂⟩ :=
    DataFile.append_eq_ok hrooted₁ htype₁ hcache hfirst
  rw [hdata₁] at hroom hnode₂ hrun
  have htype₂ : d₂.node? (Extent.typeDirectory a.base s.type) = some .directory := by
    rw [hagree₂ _ (hfile'.ne_typeDirectory s.type).symm, htype₁]
  have hheaders₂ : d₂.bytesAt (Extent.ofStream a.base s).headers =
      a.disk.bytesAt (Extent.ofStream a.base s).headers := by
    apply Disk.bytesAt_congr
    rw [hagree₂ _ (Extent.headers_ne_data a.base s s),
      hagree₁ _ (hfile.ne_typeDirectory s.type)]
  simp only at hrun
  generalize hsecond : HeadersFile.append d₂ (Extent.ofStream a.base s)
    (DataFile.headersFrom _ events) patience' = second at hrun
  obtain ⟨result, d₃⟩ := second
  cases hrun
  obtain ⟨hroom', hrooted₃, hnode₃, hagree₃⟩ :=
    HeadersFile.append_eq_ok hrooted₂ htype₂ hsecond
  rw [hheaders₂] at hroom' hnode₃
  rw [HeaderRecord.length_flatMap_encode, DataFile.length_headersFrom] at hroom'
  refine ⟨rfl, hrooted₃, hsound, ?_, hpayload, hroom, hroom', ?_, hnode₃⟩
  · refine (hagree₁.mono ?_).trans ((hagree₂.mono ?_).trans (hagree₃.mono ?_))
    · exact fun q hq => Or.inl hq
    · exact fun q hq => Or.inr (Or.inr hq)
    · exact fun q hq => Or.inr (Or.inl hq)
  · exact (hagree₃ _ (Extent.headers_ne_data a.base s s).symm).trans hnode₂

/-- Behind whole header records, the new events join those that are stored. -/
theorem Added.stores {stored : List Event} (hadded : a.Added s events a')
    (h : Extent.Stores a.disk a.base s stored []) :
    Extent.Stores a'.disk a'.base s (stored ++ events) [] := by
  have hheaders := hadded.headers_node
  rw [← List.append_nil (List.flatMap _ _), ← List.take_length
    (l := DataFile.headersFrom _ events), DataFile.length_headersFrom] at hheaders
  have hstores := h.extend_headers hadded.payload hadded.room hadded.data_node hheaders
    (by decide)
  rw [List.take_length] at hstores
  rw [hadded.base_eq]
  exact hstores

/-- What an archive needs so that completed appends add to what it stores. -/
structure Sound (a : Archive) : Prop where
  rooted : a.disk.Rooted a.base
  cache_sound : a.cache.Sound

theorem Sound.append {r : StreamId} {patience : Patience} (h : a.Sound)
    (hrun : a.append r events patience = (.ok (), a')) :
    a'.base = a.base ∧ a'.Sound ∧
      Disk.AgreeOff (Extent.IsPlaceOf a.base r) a.disk a'.disk := by
  by_cases hne : events = []
  · subst hne
    cases hrun
    exact ⟨rfl, h, fun _ _ => rfl⟩
  · have hadded := added_of_append h.rooted h.cache_sound hne hrun
    have hrooted := hadded.rooted
    rw [← hadded.base_eq] at hrooted
    exact ⟨hadded.base_eq, ⟨hrooted, hadded.cache_sound⟩, hadded.agree⟩

/-- Where there is room for all records and headers and every payload fits, an append that is not
cancelled completes. -/
theorem Sound.exists_append (h : a.Sound)
    (hpayload : ∀ e ∈ events, e.data.length ≤ DataFile.maxPayload)
    (hroom : (events.flatMap DataFile.record).length ≤
      Disk.maxFile - (a.disk.bytesAt (a.extent s).data).length)
    (hheadersRoom : events.length * HeaderRecord.size ≤
      Disk.maxFile - (a.disk.bytesAt (a.extent s).headers).length) :
    ∃ c, a.append s events none = (.ok (), c) := by
  by_cases hempty : events.isEmpty = true
  · exact ⟨a, if_pos hempty⟩
  · have hfile := Extent.isFileOf_headers a.base s
    have hfile' := Extent.isFileOf_data a.base s
    obtain ⟨d₁, hprepare, hrooted₁, htype₁, hagree₁⟩ := h.rooted.prepare_extent s
    have hdata₁ : d₁.bytesAt (Extent.ofStream a.base s).data =
        a.disk.bytesAt (Extent.ofStream a.base s).data :=
      Disk.bytesAt_congr (hagree₁ _ (hfile'.ne_typeDirectory s.type))
    have hresult := DataFile.layOut_snd_of_fits hpayload none
      (d₁.bytesAt (Extent.ofStream a.base s).data).length a.cache
    generalize hlaid : DataFile.layOut none (d₁.bytesAt (Extent.ofStream a.base s).data).length
      a.cache events = laidOut at hresult
    obtain ⟨laid, result⟩ := laidOut
    simp only [Patience.after] at hresult
    subst hresult
    obtain ⟨hbytes, hheaders, -⟩ := DataFile.layOut_eq_ok h.cache_sound hlaid
    obtain ⟨d₂, hfirst, hrooted₂, hagree₂⟩ := DataFile.exists_append hrooted₁ htype₁ hlaid (by
      rw [hbytes, hdata₁]
      exact hroom)
    have htype₂ : d₂.node? (Extent.typeDirectory a.base s.type) = some .directory := by
      rw [hagree₂ _ (hfile'.ne_typeDirectory s.type).symm, htype₁]
    have hheaders₂ : d₂.bytesAt (Extent.ofStream a.base s).headers =
        a.disk.bytesAt (Extent.ofStream a.base s).headers := by
      apply Disk.bytesAt_congr
      rw [hagree₂ _ (Extent.headers_ne_data a.base s s),
        hagree₁ _ (hfile.ne_typeDirectory s.type)]
    obtain ⟨d₃, hsecond⟩ := HeadersFile.exists_append hrooted₂ htype₂
      (HeadersFile.layOut_eq none laid.headers) (by
        rw [Patience.upTo, List.take_length, HeaderRecord.length_flatMap_encode, hheaders,
          DataFile.length_headersFrom, hheaders₂]
        exact hheadersRoom)
    refine ⟨{ a with disk := d₃, cache := laid.cache }, ?_⟩
    rw [Archive.append, if_neg hempty]
    simp only [hprepare, hfirst, hsecond]

/-- A completed append adds its events to what is stored for its stream. -/
theorem Sound.stores_append {stored : List Event} {patience : Patience} (h : a.Sound)
    (hstores : Extent.Stores a.disk a.base s stored [])
    (hrun : a.append s events patience = (.ok (), a')) :
    Extent.Stores a'.disk a'.base s (stored ++ events) [] := by
  by_cases hne : events = []
  · subst hne
    cases hrun
    rw [List.append_nil]
    exact hstores
  · exact (added_of_append h.rooted h.cache_sound hne hrun).stores hstores

/-- One archive becomes another by completed appends, which bring these events
to one of the streams. -/
inductive Appended (s : StreamId) (a : Archive) : List Event → Archive → Prop
  | refl : Appended s a [] a
  | step {before events : List Event} {b c : Archive} {r : StreamId} {patience : Patience}
      (hbefore : Appended s a before b)
      (hrun : b.append r events patience = (.ok (), c)) :
      Appended s a (before ++ if r = s then events else []) c

/-- Completed appends keep an archive sound. -/
theorem Appended.sound {xs : List Event} (h : Appended s a xs a') (hsound : a.Sound) :
    a'.base = a.base ∧ a'.Sound := by
  induction h with
  | refl => exact ⟨rfl, hsound⟩
  | step hbefore hrun ih =>
      obtain ⟨hbase, hsound'⟩ := ih
      obtain ⟨hbase', hsound'', -⟩ := hsound'.append hrun
      exact ⟨hbase'.trans hbase, hsound''⟩

/-- Completed appends add their events, in order, to what is stored without a
torn record. -/
theorem Appended.stores {xs stored : List Event} (h : Appended s a xs a')
    (hsound : a.Sound) (hstores : Extent.Stores a.disk a.base s stored []) :
    Extent.Stores a'.disk a'.base s (stored ++ xs) [] := by
  induction h with
  | refl =>
      rw [List.append_nil]
      exact hstores
  | @step before events b c r patience hbefore hrun ih =>
      obtain ⟨-, hsound'⟩ := hbefore.sound hsound
      rw [← List.append_assoc]
      by_cases hr : r = s
      · subst hr
        rw [if_pos rfl]
        exact hsound'.stores_append ih hrun
      · obtain ⟨hbase, -, hagree⟩ := hsound'.append hrun
        rw [if_neg hr, List.append_nil, hbase]
        exact ih.of_agreeOff hagree (Ne.symm hr)

/-- A removal touches its stream alone, whether or not it succeeds. -/
theorem Sound.agreeOff_delete (h : a.Sound) {weather : Nat → Interference}
    {result : Except StorageFault Unit} (hrun : a.delete s weather = (result, a')) :
    a'.base = a.base ∧ a'.Sound ∧
      Disk.AgreeOff (Extent.IsPlaceOf a.base s) a.disk a'.disk := by
  rw [Archive.delete, extent] at hrun
  generalize hremove : Extent.remove a.disk (Extent.ofStream a.base s) a.deleteAttempts
    weather = removed at hrun
  obtain ⟨result', d⟩ := removed
  cases hrun
  obtain ⟨hrooted, hagree, -⟩ := h.rooted.remove_extent hremove
  exact ⟨rfl, ⟨hrooted, h.cache_sound⟩, hagree.mono fun q hq => Or.inr hq⟩

/-- A completed removal leaves nothing stored for its stream. -/
theorem Sound.delete (h : a.Sound) {weather : Nat → Interference}
    (hrun : a.delete s weather = (.ok (), a')) :
    a'.base = a.base ∧ a'.Sound ∧ Extent.Stores a'.disk a'.base s [] [] ∧
      Disk.AgreeOff (Extent.IsPlaceOf a.base s) a.disk a'.disk := by
  obtain ⟨hbase, hsound, hagree⟩ := h.agreeOff_delete hrun
  refine ⟨hbase, hsound, ?_, hagree⟩
  rw [Archive.delete, extent] at hrun
  generalize hremove : Extent.remove a.disk (Extent.ofStream a.base s) a.deleteAttempts
    weather = removed at hrun
  obtain ⟨result, d⟩ := removed
  cases hrun
  obtain ⟨-, -, hgone⟩ := h.rooted.remove_extent hremove
  refine .absent (hgone rfl _ (Extent.isFileOf_headers a.base s)) fun data hnode => ?_
  rw [hgone rfl _ (Extent.isFileOf_data a.base s)] at hnode
  cases hnode

end Archive

end StreamStore
