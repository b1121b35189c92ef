import Mathlib.Data.List.Forall2
import StreamStore.Proofs.Storage.Records
import StreamStore.Proofs.Storage.Tree
import StreamStore.Storage.Archive

/-!
# What an archive stores

An archive stores a list of events for a stream when the stream's headers file
is a run of records that hold them, perhaps with a torn record at its end, or is
missing and there are none.  A completed append to an extent without a torn
record adds its events at the end; a read gives the slice that it asks for; a
removal leaves nothing.  None of them changes what is stored for another stream.
-/

namespace StreamStore

/-! ## Laying events out -/

namespace DataFile

/-- The headers of events whose records stand in a row from an offset on. -/
def headersFrom : Nat → List Event → List HeaderRecord
  | _, [] => []
  | offset, e :: events =>
    header offset (TypeBuffer.ofType e.type) e ::
      headersFrom (offset + (record e).length) events

/-- Laying events out to the end gives their records and headers in order. -/
theorem layOut_eq_ok {patience patience' : Patience} {offset : Nat} {cache : TypeCache}
    {events : List Event} {laid : Laid} (hcache : cache.Sound)
    (h : layOut patience offset cache events = (laid, .ok patience')) :
    laid.bytes = events.flatMap record ∧ laid.headers = headersFrom offset events ∧
      laid.cache.Sound ∧ ∀ e ∈ events, e.data.length ≤ maxPayload := by
  induction events generalizing patience offset cache laid with
  | nil =>
      cases h
      exact ⟨rfl, rfl, hcache, by simp⟩
  | cons e events ih =>
      rw [layOut] at h
      split at h
      · cases h
      next patience₁ hlook =>
        split at h
        · cases h
        next hpayload =>
          have hbuffer := TypeCache.bufferOf_fst hcache e.type
          have hsound := TypeCache.sound_bufferOf hcache e.type
          generalize cache.bufferOf e.type = found at h hbuffer hsound
          obtain ⟨buffer, cache₁⟩ := found
          simp only at hbuffer hsound
          subst hbuffer
          simp only at h
          generalize hrest : layOut patience₁ _ cache₁ events = rest at h
          obtain ⟨laid₁, result⟩ := rest
          cases result with
          | error fault => cases fault <;> cases h
          | ok patience₂ =>
              cases h
              obtain ⟨hbytes, hheaders, hcache₁, hpayloads⟩ := ih hsound hrest
              refine ⟨?_, ?_, hcache₁, ?_⟩
              · rw [List.flatMap_cons, record, ← hbytes]
              · rw [headersFrom, hheaders]
                rfl
              · intro e' he'
                rcases List.mem_cons.mp he' with rfl | he'
                · exact Nat.le_of_not_lt hpayload
                · exact hpayloads e' he'

/-- The headers of records in a row hold the events in any file in which the
records stand there. -/
theorem forall₂_holds_headersFrom {data : Bytes} {offset : Nat} {events : List Event}
    (hpayload : ∀ e ∈ events, e.data.length ≤ maxPayload)
    (hrecords : events.flatMap record <+: data.drop offset)
    (hlength : data.length ≤ Disk.maxFile) (hoffset : offset ≤ data.length) :
    List.Forall₂ (Holds data) (headersFrom offset events) events := by
  induction events generalizing offset with
  | nil => exact .nil
  | cons e events ih =>
      rw [List.flatMap_cons] at hrecords
      have hrecord : record e <+: data.drop offset :=
        (List.prefix_append _ _).trans hrecords
      have hfits : offset + (record e).length ≤ data.length := by
        have hle := hrecord.length_le
        rw [List.length_drop] at hle
        omega
      refine .cons ⟨offset, rfl, ?_, hpayload e List.mem_cons_self, hrecord⟩ ?_
      · exact Nat.le_trans hoffset hlength
      · refine ih (fun e' he' => hpayload e' (List.mem_cons_of_mem e he')) ?_ hfits
        obtain ⟨behind, hbehind⟩ := hrecords
        rw [← List.drop_drop, ← hbehind, List.append_assoc, List.drop_left]
        exact List.prefix_append _ _

/-- Behind what a file holds, the headers of a batch hold its events. -/
theorem forall₂_holds_append {content : Bytes} {events : List Event}
    (hpayload : ∀ e ∈ events, e.data.length ≤ maxPayload)
    (hlength : (content ++ events.flatMap record).length ≤ Disk.maxFile) :
    List.Forall₂ (Holds (content ++ events.flatMap record))
      (headersFrom content.length events) events := by
  apply forall₂_holds_headersFrom hpayload
  · simp only [List.drop_left, List.prefix_rfl]
  · exact hlength
  · rw [List.length_append]
    exact Nat.le_add_right _ _

theorem length_headersFrom (offset : Nat) (events : List Event) :
    (headersFrom offset events).length = events.length := by
  induction events generalizing offset with
  | nil => rfl
  | cons e events ih => rw [headersFrom, List.length_cons, List.length_cons, ih]

/-- Behind the records of some events, those of others go on at the offset where they end. -/
theorem headersFrom_append (offset : Nat) (events later : List Event) :
    headersFrom offset (events ++ later) =
      headersFrom offset events ++
        headersFrom (offset + (events.flatMap record).length) later := by
  induction events generalizing offset with
  | nil => rfl
  | cons e events ih =>
      rw [List.cons_append, headersFrom, ih, headersFrom, List.cons_append, List.flatMap_cons,
        List.length_append, Nat.add_assoc]

end DataFile

theorem HeadersFile.layOut_eq_ok {patience : Patience} {headers : List HeaderRecord}
    {bytes : Bytes} (h : layOut patience headers = (bytes, .ok ())) :
    bytes = headers.flatMap HeaderRecord.encode := by
  induction headers generalizing patience bytes with
  | nil =>
      cases h
      rfl
  | cons header headers ih =>
      rw [layOut] at h
      split at h
      · cases h
      next patience₁ hlook =>
        generalize hrest : layOut patience₁ headers = rest at h
        obtain ⟨bytes₁, result⟩ := rest
        cases h
        rw [List.flatMap_cons, ih hrest]

/-! ## Reading in a row -/

namespace PendingEvents

/-- A cursor over records that hold events gives the events in order, and then
goes on behind them. -/
theorem collectUpTo_add_of_holds {d : Disk} {data behind : Bytes}
    {hs : List HeaderRecord} {events : List Event} {headers source : Cursor}
    {position : Option Nat} {path path' : Path} {earlier earlier' : Nat}
    (hholds : List.Forall₂ (DataFile.Holds data) hs events)
    (hheaders : headers.source = .file path earlier)
    (hrest : headers.rest d = hs.flatMap HeaderRecord.encode ++ behind)
    (hsource : source.source = .file path' earlier')
    (hdata : d.contentOf (.file path' earlier') = data)
    (hposition : ∀ p, position = some p → source.rest d = data.drop p) (more : Nat) :
    ∃ headers' source' position', headers'.source = .file path earlier ∧
      headers'.rest d = behind ∧
      collectUpTo d false (hs.length + more)
          ⟨.stored headers (hs.length + more), some source, position⟩ =
        (collectUpTo d false more ⟨.stored headers' more, some source', position'⟩).map
          (events.map Event.stored ++ ·) := by
  induction hholds generalizing headers source position with
  | nil =>
      rw [List.flatMap_nil, List.nil_append] at hrest
      refine ⟨headers, source, position, hheaders, hrest, ?_⟩
      rw [List.length_nil, Nat.zero_add]
      cases collectUpTo d false more ⟨.stored headers more, some source, position⟩ with
      | error fault => rfl
      | ok found => rfl
  | @cons h e hs events hhold hholds ih =>
      have hread := Cursor.read_eq d hheaders HeaderRecord.size
      rw [hrest, List.flatMap_cons, List.append_assoc, if_pos (by
        rw [List.length_append, HeaderRecord.length_encode]
        exact Nat.le_add_right _ _)] at hread
      obtain ⟨headers₁, hread, hheaders₁, hrest₁⟩ := hread
      rw [List.take_left' (HeaderRecord.length_encode h)] at hread
      rw [List.drop_left' (HeaderRecord.length_encode h)] at hrest₁
      have hvalid := DataFile.validate_of_holds hhold
      obtain ⟨source₁, p₁, hevent, hsource₁, hposition₁⟩ :=
        DataFile.readEvent_of_holds hsource hdata hposition hhold
      have hposition' : ∀ p, some p₁ = some p → source₁.rest d = data.drop p := by
        rintro p ⟨⟩
        exact hposition₁
      obtain ⟨headers', source', position', hheaders', hrest', hlater⟩ :=
        ih hheaders₁ hrest₁ hsource₁ hposition'
      have hnext : next d
          ⟨.stored headers (hs.length + more + 1), some source, position⟩ false =
          some (.ok e.stored,
            ⟨.stored headers₁ (hs.length + more), some source₁, some p₁⟩) := by
        simp only [next, PendingHeaders.next, hread, HeaderRecord.decode_encode, hvalid,
          hevent, Bool.false_eq_true, and_false, if_false]
      refine ⟨headers', source', position', hheaders', hrest', ?_⟩
      rw [List.length_cons, Nat.succ_add, collectUpTo, hnext]
      simp only [hlater]
      cases collectUpTo d false more ⟨.stored headers' more, some source', position'⟩ with
      | error fault => rfl
      | ok found => rfl

/-- A cursor over records that hold events gives the events in order. -/
theorem collectUpTo_of_holds {d : Disk} {data behind : Bytes}
    {hs : List HeaderRecord} {events : List Event} {headers source : Cursor}
    {path path' : Path} {earlier earlier' : Nat}
    (hholds : List.Forall₂ (DataFile.Holds data) hs events)
    (hheaders : headers.source = .file path earlier)
    (hrest : headers.rest d = hs.flatMap HeaderRecord.encode ++ behind)
    (hsource : source.source = .file path' earlier')
    (hdata : d.contentOf (.file path' earlier') = data) :
    collectUpTo d false hs.length ⟨.stored headers hs.length, some source, .none⟩ =
      .ok (events.map Event.stored) := by
  have hposition : ∀ p, (.none : Option Nat) = some p → source.rest d = data.drop p := by
    rintro p ⟨⟩
  obtain ⟨headers', source', position', -, -, hcollect⟩ :=
    collectUpTo_add_of_holds hholds hheaders hrest hsource hdata hposition 0
  rw [Nat.add_zero] at hcollect
  rw [hcollect]
  exact congrArg Except.ok (List.append_nil _)

/-- The one event that a cursor gives has the identity that the record ahead of
it names. -/
theorem eventId_of_collectUpTo_one {d : Disk} {headers source : Cursor}
    {position : Option Nat} {path : Path} {earlier : Nat} {e : Event}
    (hheaders : headers.source = .file path earlier)
    (hrun : collectUpTo d false 1 ⟨.stored headers 1, some source, position⟩ = .ok [e]) :
    (HeaderRecord.decode ((headers.rest d).take HeaderRecord.size)).eventId = .ok e.id := by
  have hread := Cursor.read_eq d hheaders HeaderRecord.size
  simp only [collectUpTo, next, PendingHeaders.next, Bool.false_eq_true, and_false,
    if_false] at hrun
  split at hread
  next henough =>
    obtain ⟨headers', hread, -⟩ := hread
    rw [hread] at hrun
    simp only at hrun
    cases hvalid : (HeaderRecord.decode
        ((headers.rest d).take HeaderRecord.size)).validate maxEventTypeLength with
    | error fault =>
        rw [hvalid] at hrun
        cases hrun
    | ok _ =>
        rw [hvalid] at hrun
        simp only at hrun
        cases hevent : DataFile.readEvent d source position
            (HeaderRecord.decode ((headers.rest d).take HeaderRecord.size)) with
        | error fault =>
            rw [hevent] at hrun
            cases hrun
        | ok found =>
            obtain ⟨e', source', position'⟩ := found
            rw [hevent] at hrun
            cases hrun
            exact DataFile.eventId_of_readEvent hevent
  next hshort =>
    rw [hread] at hrun
    cases hrun

end PendingEvents

/-! ## What an extent stores -/

namespace Extent

/-- A stream's extent stores the events that its whole header records hold, and
has the bytes of a torn record behind those. -/
inductive Stores (d : Disk) (base : Path) (s : StreamId) : List Event → Bytes → Prop
  | absent
      (hheaders : d.node? (ofStream base s).headers = none)
      (hlength : ∀ data, d.node? (ofStream base s).data = some (.file data) →
        data.length ≤ Disk.maxFile) :
      Stores d base s [] []
  | present {hs : List HeaderRecord} {events : List Event} {data torn : Bytes}
      (hheaders : d.node? (ofStream base s).headers =
        some (.file (hs.flatMap HeaderRecord.encode ++ torn)))
      (hdata : d.node? (ofStream base s).data = some (.file data))
      (hlength : data.length ≤ Disk.maxFile)
      (hholds : List.Forall₂ (DataFile.Holds data) hs events)
      (htorn : torn.length < HeaderRecord.size) :
      Stores d base s events torn

variable {d d' : Disk} {base : Path} {s : StreamId} {events : List Event} {torn : Bytes}

/-- What is stored depends on the stream's two files alone. -/
theorem Stores.congr (h : Stores d base s events torn)
    (hnodes : ∀ p, IsFileOf base s p → d'.node? p = d.node? p) :
    Stores d' base s events torn := by
  have hheaders' := hnodes _ (isFileOf_headers base s)
  have hdata' := hnodes _ (isFileOf_data base s)
  cases h with
  | absent hheaders hlength =>
      refine .absent (hheaders'.trans hheaders) ?_
      rw [hdata']
      exact hlength
  | present hheaders hdata hlength hholds htorn =>
      exact .present (hheaders'.trans hheaders) (hdata'.trans hdata) hlength hholds htorn

theorem stores_nil_of_vacant (h : d.Vacant base) (s : StreamId) :
    Stores d base s [] [] := by
  refine .absent (h.node?_file (isFileOf_headers base s)) fun data hdata => ?_
  rw [h.node?_file (isFileOf_data base s)] at hdata
  cases hdata

/-- The events from a position on, at most a number of them. -/
def slice {α : Type} (skip take : Option Nat) (xs : List α) : List α :=
  match take with
  | some n => (xs.drop (skip.getD 0)).take n
  | none => xs.drop (skip.getD 0)

theorem slice_subset {α : Type} (skip take : Option Nat) (xs : List α) :
    slice skip take xs ⊆ xs := by
  cases take with
  | some n => exact fun _ hmem => List.mem_of_mem_drop (List.mem_of_mem_take hmem)
  | none => exact List.drop_subset _ _

/-- The records that a reader has ahead of it are those of the slice. -/
theorem length_slice {α : Type} (skip take : Option Nat) (xs : List α) :
    (slice skip take xs).length =
      HeadersFile.stop (skip.getD 0) take xs.length - skip.getD 0 := by
  cases take with
  | none => rw [slice, HeadersFile.stop, List.length_drop]
  | some n =>
      rw [slice, HeadersFile.stop, List.length_take, List.length_drop]
      omega

theorem forall₂_slice {α β : Type} {R : α → β → Prop} {xs : List α} {ys : List β}
    (h : List.Forall₂ R xs ys) (skip take : Option Nat) :
    List.Forall₂ R (slice skip take xs) (slice skip take ys) := by
  cases take with
  | none => exact List.forall₂_drop _ h
  | some n => exact List.forall₂_take _ (List.forall₂_drop _ h)

/-- Behind the records that a read skips are those of its slice. -/
theorem exists_drop_eq_slice (skip take : Option Nat) (hs : List HeaderRecord)
    (torn : Bytes) (hsome : slice skip take hs ≠ []) :
    ∃ behind, (hs.flatMap HeaderRecord.encode ++ torn).drop
        (skip.getD 0 * HeaderRecord.size) =
      (slice skip take hs).flatMap HeaderRecord.encode ++ behind := by
  have hle : skip.getD 0 ≤ hs.length := by
    by_contra hlt
    apply hsome
    have hnil : hs.drop (skip.getD 0) = [] := List.drop_eq_nil_of_le (by omega)
    cases take with
    | none => exact hnil
    | some n => rw [slice, hnil, List.take_nil]
  have hbytes : skip.getD 0 * HeaderRecord.size ≤ (hs.flatMap HeaderRecord.encode).length := by
    rw [HeaderRecord.length_flatMap_encode]
    exact Nat.mul_le_mul_right _ hle
  rw [List.drop_append_of_le_length hbytes, HeaderRecord.drop_flatMap_encode]
  cases take with
  | none => exact ⟨torn, rfl⟩
  | some n =>
      refine ⟨((hs.drop (skip.getD 0)).drop n).flatMap HeaderRecord.encode ++ torn, ?_⟩
      rw [slice, ← List.append_assoc, ← List.flatMap_append, List.take_append_drop]

end Extent

/-! ## Reading -/

namespace Archive

variable {a : Archive} {s : StreamId} {events : List Event} {torn : Bytes}

/-- A read of a stream whose files are there goes over the headers file. -/
theorem readAll_files (hroot : a.disk.Rooted a.base) {content data : Bytes}
    (hheaders : a.disk.node? (a.extent s).headers = some (.file content))
    (hdata : a.disk.node? (a.extent s).data = some (.file data))
    (skip take : Option Nat) (cancelled : Bool) :
    a.readAll s skip take cancelled =
      let left := HeadersFile.stop (skip.getD 0) take
        (content.length / HeaderRecord.size) - skip.getD 0
      PendingEvents.collectUpTo a.disk cancelled left
        ⟨.stored ⟨a.disk.openedAt (a.extent s).headers,
            skip.getD 0 * HeaderRecord.size, []⟩ left,
          some ⟨a.disk.openedAt (a.extent s).data, 0, []⟩, none⟩ := by
  have hfile := Extent.isFileOf_headers a.base s
  have hfile' := Extent.isFileOf_data a.base s
  have hahead := Disk.lengthOf_file a.disk hheaders
  rw [extent] at hheaders hdata hahead
  simp only [readAll, read, Extent.find?, hroot.exists?_file hfile,
    hroot.exists?_file hfile', hheaders, hdata, Option.isSome_some, Except.bind,
    EventSequence.collect, EventSequence.force, HeadersFile.open,
    hroot.open?_file hfile, hroot.open?_file hfile', if_true, Except.map,
    HeadersFile.ahead, hahead, PendingEvents.collect, PendingHeaders.size, Option.map_some,
    extent]

/-- An uncancelled read gives the slice that it asks for; a cancelled one gives
nothing but an empty slice. -/
theorem readAll_of_stores (hroot : a.disk.Rooted a.base)
    (h : Extent.Stores a.disk a.base s events torn) (skip take : Option Nat)
    (cancelled : Bool) :
    a.readAll s skip take cancelled =
      if cancelled ∧ Extent.slice skip take events ≠ [] then .error .cancelled
      else .ok ((Extent.slice skip take events).map Event.stored) := by
  have hfile := Extent.isFileOf_headers a.base s
  cases h with
  | absent hheaders hlength =>
      have hnil : Extent.slice skip take ([] : List Event) = [] := by
        cases take with
        | none => exact List.drop_nil
        | some n => rw [Extent.slice, List.drop_nil, List.take_nil]
      rw [hnil, if_neg (by simp)]
      rw [readAll, read, Extent.find?, hroot.exists?_file hfile, hheaders]
      rfl
  | @present hs _ data _ hheaders hdata hlength hholds htorn =>
      have hsource := Disk.contentOf_file a.disk hheaders
      have htotal := HeaderRecord.length_div_size hs htorn
      have hslice := Extent.forall₂_slice hholds skip take
      rw [readAll_files hroot hheaders hdata, htotal, ← Extent.length_slice]
      simp only
      by_cases hnil : Extent.slice skip take hs = []
      · rw [hnil] at hslice ⊢
        have hnil' : Extent.slice skip take events = [] := List.forall₂_nil_left_iff.mp hslice
        rw [hnil', if_neg (by simp)]
        rfl
      · have hsome : Extent.slice skip take events ≠ [] := by
          intro hnil'
          rw [hnil'] at hslice
          exact hnil (List.forall₂_nil_right_iff.mp hslice)
        cases cancelled with
        | true =>
            rw [if_pos ⟨rfl, hsome⟩]
            obtain ⟨n, hn⟩ := Nat.exists_eq_succ_of_ne_zero
              (fun hzero => hnil (List.eq_nil_of_length_eq_zero hzero))
            rw [hn, PendingEvents.collectUpTo, PendingEvents.next]
            rw [if_pos ⟨by simp [PendingHeaders.size], rfl⟩]
        | false =>
            rw [if_neg (by simp)]
            obtain ⟨behind, hbehind⟩ := Extent.exists_drop_eq_slice skip take hs torn hnil
            have hrest : Cursor.rest a.disk
                ⟨a.disk.openedAt (a.extent s).headers,
                  skip.getD 0 * HeaderRecord.size, []⟩ =
                (Extent.slice skip take hs).flatMap HeaderRecord.encode ++ behind := by
              rw [Cursor.rest, List.nil_append, extent, hsource, hbehind]
            exact PendingEvents.collectUpTo_of_holds hslice rfl hrest rfl
              (Disk.contentOf_file a.disk hdata)

/-- Events with types of proper length are read as they were written. -/
theorem readAll_of_fits (hroot : a.disk.Rooted a.base)
    (h : Extent.Stores a.disk a.base s events torn)
    (hfits : ∀ ev ∈ events, ev.type.utf8ByteSize ≤ maxEventTypeLength)
    (skip take : Option Nat) :
    a.readAll s skip take false = .ok (Extent.slice skip take events) := by
  rw [readAll_of_stores hroot h, if_neg (by simp)]
  refine congrArg Except.ok ((List.map_congr_left fun ev hev => ?_).trans (List.map_id _))
  exact Event.stored_of_fits (hfits ev (Extent.slice_subset skip take events hev))

/-- The length counts the whole header records of a stream that has an extent. -/
theorem length_of_stores (hroot : a.disk.Rooted a.base)
    (h : Extent.Stores a.disk a.base s events torn) :
    a.length s = .ok (if (a.disk.node? (a.extent s).headers).isSome
      then some events.length else none) := by
  have hfile := Extent.isFileOf_headers a.base s
  cases h with
  | absent hheaders hlength =>
      rw [length, Extent.find?, hroot.exists?_file hfile, extent, hheaders]
      rfl
  | @present hs _ data _ hheaders hdata hlength hholds htorn =>
      have htotal := HeaderRecord.length_div_size hs htorn
      rw [hholds.length_eq] at htotal
      simp only [length, Extent.find?, hroot.exists?_file hfile, hheaders,
        Option.isSome_some, Extent.length, hroot.length_file hfile hheaders, htotal, extent,
        if_true]
      rfl

end Archive

end StreamStore
