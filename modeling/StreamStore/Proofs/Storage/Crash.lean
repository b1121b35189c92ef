import StreamStore.Proofs.Storage.Appending

/-!
# Crashes in the middle of an append

A crash may cut an append off after any byte.  Whatever reached the disk by then,
the events whose header records are whole are stored, and what is read back and
counted is theirs.  A torn record at the end of the headers file does no harm as
long as nothing is appended; but appends go to the physical end of the file, so
all records that come after a torn one are out of step.
-/

namespace StreamStore

/-! ## What a crash leaves behind -/

theorem DataFile.cache_sound_layOut {cache : TypeCache} (hcache : cache.Sound)
    (patience : Patience) (offset : Nat) (events : List Event) :
    (layOut patience offset cache events).1.cache.Sound := by
  induction events generalizing patience offset cache with
  | nil => exact hcache
  | cons e events ih =>
      rw [layOut]
      split
      · exact hcache
      next patience₁ hlook =>
        split
        · exact hcache
        · have hrest := ih (TypeCache.sound_bufferOf hcache e.type) patience₁
            (offset + ((cache.bufferOf e.type).1.bytes ++ e.data).length)
          simp only
          split
          · exact hrest
          · exact hrest

/-- Header records that are cut off after any byte are some whole ones and a
torn one. -/
theorem HeaderRecord.take_flatMap_encode (hs : List HeaderRecord) (k : Nat) :
    ∃ n torn, n ≤ hs.length ∧ torn.length < size ∧
      (hs.flatMap encode).take k = (hs.take n).flatMap encode ++ torn := by
  induction hs generalizing k with
  | nil => exact ⟨0, [], Nat.le_refl 0, by decide, List.take_nil⟩
  | cons h hs ih =>
      by_cases hk : k < size
      · refine ⟨0, h.encode.take k, Nat.zero_le _, ?_, ?_⟩
        · rw [List.length_take, length_encode]
          exact Nat.lt_of_le_of_lt (Nat.min_le_left k size) hk
        · rw [List.flatMap_cons, List.take_append_of_le_length (by
            rw [length_encode]
            exact Nat.le_of_lt hk)]
          rfl
      · obtain ⟨n, torn, hn, htorn, htake⟩ := ih (k - size)
        refine ⟨n + 1, torn, Nat.succ_le_succ hn, htorn, ?_⟩
        rw [List.flatMap_cons, List.take_append, length_encode, htake,
          List.take_of_length_le (by
            rw [length_encode]
            exact Nat.le_of_not_lt hk),
          List.take_succ_cons, List.flatMap_cons, List.append_assoc]

theorem HeaderRecord.exists_timestamp_ne (b : UInt8) :
    ∃ timestamp : Int64, timestamp.toUInt64.toNat % 256 ≠ b.toNat := by
  by_cases hb : b = 0
  · refine ⟨1, ?_⟩
    rw [hb]
    decide
  · exact ⟨0, fun hzero => hb (UInt8.toNat_inj.mp hzero.symm)⟩

/-- The one event that a cursor gives has the byte ahead of it as the low byte of
its timestamp. -/
theorem PendingEvents.timestamp_of_collectUpTo_one {d : Disk} {headers source : Cursor}
    {position : Option Nat} {path : Path} {earlier : Nat} {e : Event} {b : UInt8} {behind : Bytes}
    (hheaders : headers.source = .file path earlier) (hrest : headers.rest d = b :: behind)
    (hrun : collectUpTo d false 1 ⟨.stored headers 1, some source, position⟩ = .ok [e]) :
    e.id.timestamp.toUInt64.toNat % 256 = b.toNat := by
  have hid := eventId_of_collectUpTo_one hheaders hrun
  rw [hrest, HeaderRecord.size, List.take_succ_cons] at hid
  rw [← HeaderRecord.timestamp_of_eventId hid]
  exact HeaderRecord.timestamp_decode_cons b (behind.take 25)

namespace Extent

variable {d d' : Disk} {base : Path} {s : StreamId} {stored events : List Event}

/-- What an append makes of a stream's files, however far it came: some bytes are put
behind those of the data file, or all records are, and the first bytes of their headers
behind those of the headers file. -/
inductive Extended (d d' : Disk) (base : Path) (s : StreamId) (events : List Event) : Prop
  | data {behind : Bytes}
      (hheaders : d'.node? (ofStream base s).headers = d.node? (ofStream base s).headers)
      (hdata : d'.node? (ofStream base s).data =
        some (.file (d.bytesAt (ofStream base s).data ++ behind)))
      (hroom : behind.length ≤ Disk.maxFile - (d.bytesAt (ofStream base s).data).length)
  | headers {written : Bytes}
      (hpayload : ∀ e ∈ events, e.data.length ≤ DataFile.maxPayload)
      (hroom : (events.flatMap DataFile.record).length ≤
        Disk.maxFile - (d.bytesAt (ofStream base s).data).length)
      (hdata : d'.node? (ofStream base s).data = some (.file
        (d.bytesAt (ofStream base s).data ++ events.flatMap DataFile.record)))
      (hheaders : d'.node? (ofStream base s).headers = some (.file
        (d.bytesAt (ofStream base s).headers ++ written)))
      (hwritten : written <+: (DataFile.headersFrom
        (d.bytesAt (ofStream base s).data).length events).flatMap HeaderRecord.encode)

theorem Extended.congr {d₀ : Disk} (h : Extended d d' base s events)
    (hnodes : ∀ p, IsFileOf base s p → d.node? p = d₀.node? p) :
    Extended d₀ d' base s events := by
  have hheaders := hnodes _ (isFileOf_headers base s)
  have hdata := hnodes _ (isFileOf_data base s)
  cases h with
  | data hheaders' hdata' hroom =>
      rw [Disk.bytesAt_congr hdata] at hdata' hroom
      exact .data (hheaders'.trans hheaders) hdata' hroom
  | headers hpayload hroom hdata' hheaders' hwritten =>
      rw [Disk.bytesAt_congr hdata] at hroom hdata' hwritten
      rw [Disk.bytesAt_congr hheaders] at hheaders'
      exact .headers hpayload hroom hdata' hheaders' hwritten

/-- However far an append came, the first of its events are stored. -/
theorem Stores.of_extended (h : Stores d base s stored [])
    (hextended : Extended d d' base s events) :
    ∃ n torn, Stores d' base s (stored ++ events.take n) torn := by
  cases hextended with
  | data hheaders hdata hroom =>
      refine ⟨0, [], ?_⟩
      rw [List.take_zero, List.append_nil]
      exact h.extend_data hheaders hdata hroom
  | headers hpayload hroom hdata hheaders hwritten =>
      obtain ⟨n, torn, -, htorn, htake⟩ := HeaderRecord.take_flatMap_encode _ _
      rw [List.prefix_iff_eq_take.mp hwritten, htake] at hheaders
      exact ⟨n, torn, h.extend_headers hpayload hroom hdata hheaders htorn⟩

end Extent

namespace Archive

variable {a a' : Archive} {s : StreamId} {stored events : List Event}

/-- What an append of some events to a stream makes of an archive, however far it
came. -/
structure Tried (a : Archive) (s : StreamId) (events : List Event) (a' : Archive) :
    Prop where
  base_eq : a'.base = a.base
  sound : a'.Sound
  agree : Disk.AgreeOff (Extent.IsPlaceOf a.base s) a.disk a'.disk
  extended : Extent.Extended a.disk a'.disk a.base s events

theorem Tried.stores (htried : a.Tried s events a')
    (h : Extent.Stores a.disk a.base s stored []) :
    ∃ n torn, Extent.Stores a'.disk a'.base s (stored ++ events.take n) torn := by
  rw [htried.base_eq]
  exact h.of_extended htried.extended

theorem Sound.tried_appendCut (h : a.Sound) {bytes : Nat}
    {result : Except StorageFault Unit}
    (hrun : a.appendCut s events bytes = (result, a')) : a.Tried s events a' := by
  have hfile := Extent.isFileOf_headers a.base s
  have hfile' := Extent.isFileOf_data a.base s
  obtain ⟨d₁, hprepare, hrooted₁, htype₁, hagree₁⟩ := h.rooted.prepare_extent s
  have hnodes₁ : ∀ p, Extent.IsFileOf a.base s p → d₁.node? p = a.disk.node? p :=
    fun p hp => hagree₁ p (hp.ne_typeDirectory s.type)
  obtain ⟨d₂, hopen, hrooted₂, hnode₂, hagree₂⟩ :=
    hrooted₁.openForWriting_file hfile' htype₁
  have htype₂ : d₂.node? (Extent.typeDirectory a.base s.type) = some .directory := by
    rw [hagree₂ _ (hfile'.ne_typeDirectory s.type).symm, htype₁]
  simp only [Archive.appendCut, hprepare, hopen] at hrun
  have hsound := DataFile.cache_sound_layOut h.cache_sound none
    (d₁.bytesAt (Extent.ofStream a.base s).data).length events
  generalize hlaid : DataFile.layOut none
    (d₁.bytesAt (Extent.ofStream a.base s).data).length a.cache events = laidOut at hrun hsound
  obtain ⟨laid, outcome⟩ := laidOut
  simp only at hrun hsound
  obtain ⟨hrooted₃, hnode₃, hagree₃⟩ := hrooted₂.extend_file hfile' htype₂
    (d₁.bytesAt (Extent.ofStream a.base s).data) (laid.bytes.take bytes)
  generalize hwrite : d₂.extend (Extent.ofStream a.base s).data
    (d₁.bytesAt (Extent.ofStream a.base s).data) (laid.bytes.take bytes) =
      written at hrun hrooted₃ hnode₃ hagree₃
  obtain ⟨writing, d₃⟩ := written
  simp only at hrun hrooted₃ hnode₃ hagree₃
  have hheaders₃ : d₃.node? (Extent.ofStream a.base s).headers =
      d₁.node? (Extent.ofStream a.base s).headers := by
    rw [hagree₃ _ (Extent.headers_ne_data a.base s s),
      hagree₂ _ (Extent.headers_ne_data a.base s s)]
  have hplaces₃ : Disk.AgreeOff (Extent.IsPlaceOf a.base s) a.disk d₃ :=
    (hagree₁.mono fun q hq => Or.inl hq).trans
      ((hagree₂.trans hagree₃).mono fun q hq => Or.inr (Or.inr hq))
  have hdata₃ : Extent.Extended a.disk d₃ a.base s events :=
    Extent.Extended.congr (.data hheaders₃ hnode₃ (List.length_take_le _ _)) hnodes₁
  cases writing with
  | error fault =>
      cases hrun
      exact ⟨rfl, ⟨hrooted₃, hsound⟩, hplaces₃, hdata₃⟩
  | ok _ =>
  cases outcome with
  | error fault =>
      cases hrun
      exact ⟨rfl, ⟨hrooted₃, hsound⟩, hplaces₃, hdata₃⟩
  | ok patience =>
  simp only at hrun
  split at hrun
  · cases hrun
    exact ⟨rfl, ⟨hrooted₃, hsound⟩, hplaces₃, hdata₃⟩
  next hwhole =>
    have htype₃ : d₃.node? (Extent.typeDirectory a.base s.type) = some .directory := by
      rw [hagree₃ _ (hfile'.ne_typeDirectory s.type).symm, htype₂]
    obtain ⟨d₄, hopen', hrooted₄, hnode₄, hagree₄⟩ :=
      hrooted₃.openForWriting_file hfile htype₃
    have htype₄ : d₄.node? (Extent.typeDirectory a.base s.type) = some .directory := by
      rw [hagree₄ _ (hfile.ne_typeDirectory s.type).symm, htype₃]
    obtain ⟨hbytes, hheaders, -, hpayload⟩ := DataFile.layOut_eq_ok h.cache_sound hlaid
    rw [hopen', Disk.bytesAt_congr hheaders₃, hheaders] at hrun
    obtain ⟨hroom, -⟩ := Disk.extend_eq_ok hwrite
    rw [List.take_of_length_le (Nat.le_of_not_lt hwhole), hbytes] at hroom
    rw [List.take_of_length_le (Nat.le_of_not_lt hwhole), hbytes,
      List.take_of_length_le hroom] at hnode₃
    obtain ⟨hrooted₅, hnode₅, hagree₅⟩ := hrooted₄.extend_file hfile htype₄
      (d₁.bytesAt (Extent.ofStream a.base s).headers)
      (((DataFile.headersFrom (d₁.bytesAt (Extent.ofStream a.base s).data).length
        events).flatMap HeaderRecord.encode).take (bytes - laid.bytes.length))
    have hdata₅ := (hagree₅ _ (Extent.headers_ne_data a.base s s).symm).trans
      ((hagree₄ _ (Extent.headers_ne_data a.base s s).symm).trans hnode₃)
    cases hrun
    refine ⟨rfl, ⟨hrooted₅, hsound⟩, hplaces₃.trans ((hagree₄.trans hagree₅).mono
      fun q hq => Or.inr (Or.inl hq)), Extent.Extended.congr ?_ hnodes₁⟩
    exact .headers hpayload hroom hdata₅ hnode₅
      ((List.take_prefix _ _).trans (List.take_prefix _ _))

/-- Whatever an append that was cut off left behind, the first of its events are
stored. -/
theorem Sound.appendCut (h : a.Sound)
    (hstores : Extent.Stores a.disk a.base s stored []) {bytes : Nat}
    {result : Except StorageFault Unit}
    (hrun : a.appendCut s events bytes = (result, a')) :
    a'.base = a.base ∧ a'.Sound ∧ ∃ n torn,
      Extent.Stores a'.disk a'.base s (stored ++ events.take n) torn := by
  have htried := h.tried_appendCut hrun
  exact ⟨htried.base_eq, htried.sound, htried.stores hstores⟩

/-! ## Reading and counting after a crash -/

/-- How many header records of a stream are whole. -/
def wholeHeaders (a : Archive) (s : StreamId) : Nat :=
  (a.disk.bytesAt (a.extent s).headers).length / HeaderRecord.size

/-- The headers file of a stream ends with a torn record. -/
def IsTorn (a : Archive) (s : StreamId) : Prop :=
  (a.disk.bytesAt (a.extent s).headers).length % HeaderRecord.size ≠ 0

instance (a : Archive) (s : StreamId) : Decidable (a.IsTorn s) :=
  inferInstanceAs (Decidable (_ ≠ _))

/-- A full read of a stream gives these events, and its length is their number. -/
def Tells (a : Archive) (s : StreamId) (events : List Event) : Prop :=
  a.readAll s none none false = .ok (events.map Event.stored) ∧
    ∃ n, a.length s = .ok n ∧ n.getD 0 = events.length

/-- The same files with nothing remembered. -/
def restarted (a : Archive) : Archive := { a with cache := {} }

theorem Sound.restarted (h : a.Sound) : a.restarted.Sound :=
  ⟨h.rooted, TypeCache.sound_empty⟩

theorem tells_of_stores (h : a.Sound) {torn : Bytes}
    (hstores : Extent.Stores a.disk a.base s events torn) : a.Tells s events := by
  constructor
  · rw [readAll_of_stores h.rooted hstores, if_neg (by simp)]
    rfl
  · refine ⟨_, length_of_stores h.rooted hstores, ?_⟩
    cases hstores with
    | absent hheaders hlength =>
        rw [extent, hheaders]
        rfl
    | present hheaders hdata hlength hholds htorn =>
        rw [extent, hheaders]
        rfl

theorem isTorn_iff {torn : Bytes}
    (hstores : Extent.Stores a.disk a.base s events torn) : a.IsTorn s ↔ torn ≠ [] := by
  obtain ⟨hlength, htorn⟩ := hstores.length_bytesAt
  rw [IsTorn, extent, hlength, Nat.mul_add_mod_self_right, Nat.mod_eq_of_lt htorn, ne_eq,
    List.length_eq_zero_iff]

theorem wholeHeaders_of_stores {torn : Bytes}
    (hstores : Extent.Stores a.disk a.base s events torn) :
    a.wholeHeaders s = events.length := by
  obtain ⟨hlength, htorn⟩ := hstores.length_bytesAt
  rw [wholeHeaders, extent, hlength, Nat.add_comm, Nat.add_mul_div_right _ _ (by decide),
    Nat.div_eq_of_lt htorn, Nat.zero_add]

/-- While no event comes to a stream, what is stored for it stays, with its torn
record. -/
theorem Appended.stores_of_nil {xs : List Event} {torn : Bytes} (h : Appended s a xs a')
    (hsound : a.Sound) (hstores : Extent.Stores a.disk a.base s stored torn)
    (hxs : xs = []) : Extent.Stores a'.disk a'.base s stored torn := by
  induction h with
  | refl => exact hstores
  | @step before events b c r patience hbefore hrun ih =>
      obtain ⟨hbefore', hevents⟩ := List.append_eq_nil_iff.mp hxs
      have hstores' := ih hbefore'
      obtain ⟨-, hsound'⟩ := hbefore.sound hsound
      by_cases hr : r = s
      · rw [if_pos hr] at hevents
        subst hevents
        cases hrun
        exact hstores'
      · obtain ⟨hbase, -, hagree⟩ := hsound'.append hrun
        rw [hbase]
        exact hstores'.of_agreeOff hagree (Ne.symm hr)

/-- The first completed append that brings events to a stream. -/
theorem Appended.exists_first {xs : List Event} (h : Appended s a xs a') (hxs : xs ≠ []) :
    ∃ b c patience events, Appended s a [] b ∧ events ≠ [] ∧
      b.append s events patience = (.ok (), c) := by
  induction h with
  | refl => exact (hxs rfl).elim
  | @step before events b c r patience hbefore hrun ih =>
      by_cases hbefore' : before = []
      · subst hbefore'
        by_cases hr : r = s
        · subst hr
          rw [if_pos rfl] at hxs
          exact ⟨b, c, patience, events, hbefore, hxs, hrun⟩
        · rw [if_neg hr] at hxs
          exact (hxs rfl).elim
      · exact ih hbefore'

/-- Where an append completed, one of a single bare event would have, too. -/
theorem Sound.exists_append_bare (h : a.Sound) (hadded : a.Added s events a')
    (hne : events ≠ []) (id : EventId) :
    ∃ c, a.append s [⟨id, "", []⟩] none = (.ok (), c) := by
  obtain ⟨first, rest, rfl⟩ := List.exists_cons_of_ne_nil hne
  have hroom := hadded.room
  have hroom' := hadded.headers_room
  rw [List.flatMap_cons, List.length_append, DataFile.length_record] at hroom
  rw [List.length_cons, Nat.succ_mul] at hroom'
  refine h.exists_append (List.forall_mem_singleton.mpr (Nat.zero_le _)) ?_ ?_
  · rw [List.flatMap_singleton, DataFile.length_record]
    exact Nat.le_trans (Nat.le_trans (Nat.le_add_right _ _) (Nat.le_add_right _ _)) hroom
  · rw [List.length_singleton, Nat.one_mul]
    exact Nat.le_trans (Nat.le_add_left _ _) hroom'

/-! ## Records behind a torn one -/

/-- Of a record behind a torn one, the first byte is a byte of the torn one, so
an event whose timestamp starts with another byte is not read back. -/
theorem not_tells_of_torn {torn : Bytes} {b : UInt8} {e : Event}
    (hstores : Extent.Stores a.disk a.base s stored (b :: torn))
    (hadded : a.Added s [e] a')
    (hbyte : e.id.timestamp.toUInt64.toNat % 256 ≠ b.toNat) :
    ¬a'.Tells s (stored ++ [e]) := by
  rintro ⟨hread, -⟩
  cases hstores with
  | @present hs _ data _ hheaders hdata hlength hholds htorn =>
  have hheaders' := hadded.headers_node
  have hdata' := hadded.data_node
  have hrooted := hadded.rooted
  rw [← hadded.base_eq] at hrooted
  rw [extent, Disk.bytesAt_eq hdata] at hdata' hheaders'
  rw [Disk.bytesAt_eq hheaders] at hheaders'
  simp only [DataFile.headersFrom, List.flatMap_cons, List.flatMap_nil,
    List.append_nil, List.append_assoc] at hheaders' hdata'
  generalize DataFile.header data.length (TypeBuffer.ofType e.type) e = header at hheaders'
  rw [← hadded.base_eq] at hheaders' hdata'
  have htotal : (hs.flatMap HeaderRecord.encode ++ (b :: torn ++ header.encode)).length /
      HeaderRecord.size = hs.length + 1 := by
    rw [List.length_append, List.length_append, HeaderRecord.length_flatMap_encode,
      HeaderRecord.length_encode]
    rw [HeaderRecord.size] at htorn ⊢
    omega
  rw [readAll_files hrooted hheaders' hdata', htotal] at hread
  have hholds' : List.Forall₂ (DataFile.Holds (data ++ DataFile.record e)) hs stored :=
    hholds.imp fun h e hhold => hhold.append _
  have hrest : Cursor.rest a'.disk ⟨a'.disk.openedAt (a'.extent s).headers, 0, []⟩ =
      hs.flatMap HeaderRecord.encode ++ (b :: torn ++ header.encode) := by
    rw [Cursor.rest, extent, Disk.contentOf_file _ hheaders']
    rfl
  have hposition : ∀ p, (none : Option Nat) = some p →
      Cursor.rest a'.disk ⟨a'.disk.openedAt (a'.extent s).data, 0, []⟩ =
        (data ++ DataFile.record e).drop p := by
    rintro p ⟨⟩
  obtain ⟨headers', source', position', hsource', hrest', hcollect⟩ :=
    PendingEvents.collectUpTo_add_of_holds hholds' rfl hrest rfl
      (Disk.contentOf_file _ hdata') hposition 1
  simp only [HeadersFile.stop, Option.getD_none, Nat.sub_zero, Nat.zero_mul, hcollect] at hread
  cases hlast : PendingEvents.collectUpTo a'.disk false 1
      ⟨.stored headers' 1, some source', position'⟩ with
  | error fault =>
      rw [hlast] at hread
      cases hread
  | ok found =>
      rw [hlast, List.map_append] at hread
      have hfound := List.append_cancel_left (Except.ok.inj hread)
      rw [hfound, List.map_singleton] at hlast
      have htimestamp := PendingEvents.timestamp_of_collectUpTo_one hsource' hrest' hlast
      exact hbyte htimestamp

/-- After a crash in an append, later appends are read and counted behind what
the crash left exactly where it left no torn header record, unless no event can
come to the stream any more.  Behind a torn record, an event is not read back
whose timestamp does not fit the first byte of it. -/
theorem tells_after_crash_iff {a a₁ a₂ : Archive} {s : StreamId} {xs ys : List Event}
    {bytes : Nat} {result : Except StorageFault Unit}
    (hvacant : a.disk.Vacant a.base) (hcache : a.cache = {})
    (hxs : Appended s a xs a₁) (hcrash : a₁.appendCut s ys bytes = (result, a₂)) :
    (∀ zs a₃, Appended s a₂.restarted zs a₃ →
        a₃.Tells s (xs ++ ys.take (a₂.wholeHeaders s - xs.length) ++ zs)) ↔
      ¬a₂.IsTorn s ∨ ∀ zs a₃, Appended s a₂.restarted zs a₃ → zs = [] := by
  have hsound : a.Sound := ⟨hvacant.rooted, by rw [hcache]; exact TypeCache.sound_empty⟩
  have hsound₁ := (hxs.sound hsound).2
  have hstores₁ := hxs.stores hsound (Extent.stores_nil_of_vacant hvacant s)
  rw [List.nil_append] at hstores₁
  obtain ⟨-, hsound₂, n, torn, hstores₂⟩ := hsound₁.appendCut hstores₁ hcrash
  have hwhole : ys.take (a₂.wholeHeaders s - xs.length) = ys.take n := by
    rw [wholeHeaders_of_stores hstores₂, List.length_append, Nat.add_sub_cancel_left,
      List.length_take, List.take_eq_take_iff]
    omega
  have hrestarted : Extent.Stores a₂.restarted.disk a₂.restarted.base s
      (xs ++ ys.take n) torn := hstores₂
  rw [hwhole, isTorn_iff hstores₂, ne_eq, not_not]
  constructor
  · intro htells
    by_contra hneither
    push Not at hneither
    obtain ⟨htorn, zs, a₃, happended, hzs⟩ := hneither
    obtain ⟨b, c, patience, events, hbefore, hevents, hrun⟩ := happended.exists_first hzs
    have hsoundb := (hbefore.sound hsound₂.restarted).2
    have hstoresb := hbefore.stores_of_nil hsound₂.restarted hrestarted rfl
    have hadded := added_of_append hsoundb.rooted hsoundb.cache_sound hevents hrun
    obtain ⟨first, torn', rfl⟩ := List.exists_cons_of_ne_nil htorn
    obtain ⟨timestamp, htimestamp⟩ := HeaderRecord.exists_timestamp_ne first
    obtain ⟨c', hrun'⟩ := hsoundb.exists_append_bare hadded hevents ⟨timestamp, 0⟩
    have hadded' := added_of_append hsoundb.rooted hsoundb.cache_sound
      (List.cons_ne_nil _ _) hrun'
    have happended' := hbefore.step (r := s) hrun'
    rw [if_pos rfl, List.nil_append] at happended'
    exact not_tells_of_torn hstoresb hadded' htimestamp (htells _ _ happended')
  · rintro (rfl | hnothing) zs a₃ happended
    · exact tells_of_stores (happended.sound hsound₂.restarted).2
        (happended.stores hsound₂.restarted hrestarted)
    · have hzs := hnothing zs a₃ happended
      rw [hzs, List.append_nil]
      exact tells_of_stores (happended.sound hsound₂.restarted).2
        (happended.stores_of_nil hsound₂.restarted hrestarted hzs)

/-- An archive over an empty tree, at its root. -/
def blank : Archive := { base := [], disk := {} }

theorem vacant_blank : blank.disk.Vacant blank.base where
  base_lookup := rfl
  node?_eq_none _ _ hp := if_neg hp

/-- A stream to append to. -/
def orders : StreamId := ⟨Uuid.ofNat 1, ⟨"orders", by decide⟩⟩

/-- An event to append. -/
def placed : Event := ⟨⟨5, 0⟩, "placed", [1, 2]⟩

/-- A refusal to remove a file, from outside. -/
def barred : Hindrance := { fault := .refused }

/-- The crash comes ten bytes into the header record of the first event, and the
next append goes through. -/
theorem not_tells_after_torn_header :
    (blank.appendCut orders [placed] 76).2.IsTorn orders ∧
      ¬∀ zs a₃, Appended orders (blank.appendCut orders [placed] 76).2.restarted zs a₃ →
        a₃.Tells orders ([] ++ [placed].take
          ((blank.appendCut orders [placed] 76).2.wholeHeaders orders - 0) ++ zs) := by
  have htorn : (blank.appendCut orders [placed] 76).2.IsTorn orders := by
    rw [IsTorn]
    decide +kernel
  have hlater : ((blank.appendCut orders [placed] 76).2.restarted.append orders
      [placed] none).1.toBool = true := by
    decide +kernel
  have hcrash : blank.appendCut orders [placed] 76 =
      ((blank.appendCut orders [placed] 76).1, (blank.appendCut orders [placed] 76).2) :=
    (Prod.eta _).symm
  generalize (blank.appendCut orders [placed] 76).2 = a₂ at htorn hlater hcrash
  refine ⟨htorn, fun htells => ?_⟩
  rcases (tells_after_crash_iff vacant_blank rfl .refl hcrash).mp htells with
    hwhole | hnothing
  · exact hwhole htorn
  · cases hrun : a₂.restarted.append orders [placed] none with
    | mk outcome c =>
    rw [hrun] at hlater
    cases outcome with
    | error fault => cases hlater
    | ok _ =>
        have hzs := hnothing _ _ (.step .refl hrun)
        cases hzs

end Archive

end StreamStore
