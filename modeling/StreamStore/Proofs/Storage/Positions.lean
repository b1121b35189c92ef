import Mathlib.Data.Nat.Notation
import StreamStore.Proofs.Storage.Records
import StreamStore.Storage.Archive

/-!
# Reading by position

Whatever bytes a stream's two files have, the event at a position depends on the header record at
that position and on the bytes of the data file alone.  A read gives the events at its positions in
order, up to the first failure.  A cursor on a file stands where the bytes ahead of it start, so it
makes no difference whether it was moved there or had come there by reading.
-/

namespace StreamStore

/-! ## What stands at a position -/

namespace HeaderRecord

/-- The record at a position of a headers file. -/
def nth (headers : Bytes) (i : Nat) : HeaderRecord :=
  decode ((headers.drop (i * size)).take size)

/-- The event that a record describes in a data file, or what is wrong first. -/
def eventIn (data : Bytes) (h : HeaderRecord) : Except StorageFault Event :=
  if h.typeLength.toInt < 0 ∨ (maxEventTypeLength : Int) < h.typeLength.toInt then
    .error (.corrupt (.typeLength h.typeLength.toInt))
  else if h.dataOffset.toInt < 0 then
    .error (.corrupt (.negativeOffset h.dataOffset.toInt))
  else if h.dataLength.toInt < 0 then
    .error (.corrupt (.negativeLength h.dataLength.toInt))
  else
    let ahead := data.drop h.dataOffset.toInt.toNat
    let length := h.dataLength.toInt.toNat
    if ahead.length < maxEventTypeLength then .error (.io .earlyEnd)
    else
      match Utf8.decode (ahead.take h.typeLength.toInt.toNat) with
      | .error fault => .error (.corrupt (.typeNotUtf8 fault))
      | .ok cs =>
        if ahead.length < maxEventTypeLength + length then .error (.io .earlyEnd)
        else if h.sequence.toInt < 0 ∨ 65535 < h.sequence.toInt then
          .error (.corrupt (.sequence h.sequence.toInt))
        else
          .ok {
            id := ⟨h.timestamp, UInt16.ofNat h.sequence.toInt.toNat⟩
            type := String.ofList cs
            data := (ahead.drop maxEventTypeLength).take length }

end HeaderRecord

namespace Node

def bytes : Node → Bytes
  | directory => []
  | file content => content

def length : Node → Nat
  | directory => Disk.directoryLength
  | file content => content.length

/-- The event at a position, where directories may stand in the places of files. -/
def eventAt (headers data : Node) (i : Nat) : Except StorageFault Event :=
  match headers, data with
  | .directory, _ => .error (.io (.disk .isDirectory))
  | .file headers, .directory =>
    ((HeaderRecord.nth headers i).validate maxEventTypeLength).bind fun _ =>
      .error (.io (.disk .isDirectory))
  | .file headers, .file data => (HeaderRecord.nth headers i).eventIn data

end Node

/-- The positions of a read of at most `take` records from `skip` on, of `total`. -/
def positions (skip take : Option Nat) (total : Nat) : List Nat :=
  List.range' (skip.getD 0) (HeadersFile.stop (skip.getD 0) take total - skip.getD 0)

namespace HeaderRecord

variable {h : HeaderRecord} {data : Bytes}

/-- A header spells an event in the bytes of a data file. -/
structure Spells (h : HeaderRecord) (data : Bytes) (e : Event) : Prop where
  type_fits : h.typeLength.toInt.toNat ≤ maxEventTypeLength
  record_fits : h.dataOffset.toInt.toNat + maxEventTypeLength + h.dataLength.toInt.toNat ≤
    data.length
  type_eq : Utf8.encode e.type.toList =
    (data.drop h.dataOffset.toInt.toNat).take h.typeLength.toInt.toNat
  data_eq : e.data =
    (data.drop (h.dataOffset.toInt.toNat + maxEventTypeLength)).take h.dataLength.toInt.toNat
  timestamp_eq : e.id.timestamp = h.timestamp
  sequence_eq : e.id.sequence.toNat = h.sequence.toInt

theorem spells_of_eventIn {e : Event} (hevent : h.eventIn data = .ok e) :
    h.Spells data e := by
  simp only [eventIn] at hevent
  split at hevent
  · cases hevent
  next htype =>
    split at hevent
    · cases hevent
    split at hevent
    · cases hevent
    split at hevent
    · cases hevent
    next hbuffer =>
      split at hevent
      · cases hevent
      next cs hdecode =>
        split at hevent
        · cases hevent
        next hpayload =>
          split at hevent
          · cases hevent
          next hsequence =>
            cases hevent
            rw [List.length_drop] at hpayload
            have hpositive : 0 < maxEventTypeLength := by decide
            constructor
            · omega
            · omega
            · rw [String.toList_ofList]
              exact Utf8.decode_eq_ok_iff.mp hdecode
            · rw [List.drop_drop]
            · rfl
            · change (UInt16.ofNat h.sequence.toInt.toNat).toNat = h.sequence.toInt
              rw [UInt16.toNat_ofNat']
              omega

/-- Bytes are refused for not being those of a text. -/
theorem ne_encode_of_eventIn {fault : Utf8.Fault}
    (hevent : h.eventIn data = .error (.corrupt (.typeNotUtf8 fault))) (text : String) :
    Utf8.encode text.toList ≠
      (data.drop h.dataOffset.toInt.toNat).take h.typeLength.toInt.toNat := by
  intro htext
  simp only [eventIn] at hevent
  split at hevent
  · cases hevent
  split at hevent
  · cases hevent
  split at hevent
  · cases hevent
  split at hevent
  · cases hevent
  rw [← htext, Utf8.decode_encode] at hevent
  simp only at hevent
  split at hevent
  · cases hevent
  split at hevent <;> cases hevent

end HeaderRecord

/-! ## Cursors on nodes -/

/-- What was opened is a node, with the bytes that it has now. -/
inductive Disk.Shows (d : Disk) : Opened → Node → Prop
  | directory : Shows d .directory .directory
  | file {path : Path} {earlier : Nat} {content : Bytes}
      (hcontent : d.contentOf (.file path earlier) = content) :
      Shows d (.file path earlier) (.file content)

namespace Disk.Shows

variable {d : Disk} {source : Opened} {node : Node}

theorem contentOf_eq (h : d.Shows source node) : d.contentOf source = node.bytes := by
  cases h with
  | directory => rfl
  | file hcontent => exact hcontent

theorem lengthOf_eq (h : d.Shows source node) : d.lengthOf source = node.length := by
  cases h with
  | directory => rfl
  | file hcontent => exact congrArg List.length hcontent

end Disk.Shows

theorem Disk.exists_shows {d : Disk} {p : Path} {node : Node} (h : d.lookup p = .ok node) :
    ∃ source, d.open? p = .ok (some source) ∧ d.Shows source node := by
  cases node with
  | directory => exact ⟨.directory, by rw [open?, h], .directory⟩
  | file content =>
      have hnode : d.node? p = some (.file content) := by
        rw [lookup] at h
        split at h
        · cases h
        · split at h
          · cases h
          next hnode =>
            cases h
            exact hnode
      have hcontent : d.contentOf (.file p (d.removedFrom p).length) = content := by
        simp only [contentOf, List.getElem?_eq_none (Nat.le_refl _), hnode]
      exact ⟨.file p (d.removedFrom p).length, by rw [open?, h], .file hcontent⟩

/-- A cursor on a node has the bytes from a position on ahead of it. -/
structure Cursor.StandsAt (d : Disk) (c : Cursor) (node : Node) (position : Nat) : Prop where
  shows : d.Shows c.source node
  rest_eq : c.rest d = node.bytes.drop position

namespace Cursor

variable {d : Disk} {c : Cursor} {content : Bytes} {position n : Nat}

theorem read_of_standsAt_directory (h : c.StandsAt d .directory position) (hn : n ≠ 0) :
    c.read d n = .error (.io (.disk .isDirectory)) := by
  obtain ⟨hshows, hrest⟩ := h
  have hbuffer : c.buffer = [] := by
    rw [Node.bytes, List.drop_nil, rest] at hrest
    exact (List.append_eq_nil_iff.mp hrest).1
  generalize hsource : c.source = source at hshows
  cases hshows
  rw [read, hbuffer, List.length_nil, if_neg (Nat.not_le.mpr (Nat.pos_of_ne_zero hn)), hsource]

theorem read_of_standsAt_file (h : c.StandsAt d (.file content) position) (n : Nat) :
    if n ≤ (content.drop position).length then
      ∃ c', c.read d n = .ok ((content.drop position).take n, c') ∧
        c'.StandsAt d (.file content) (position + n)
    else c.read d n = .error (.io .earlyEnd) := by
  obtain ⟨hshows, hrest⟩ := h
  generalize hsource : c.source = source at hshows
  cases hshows with | file hcontent => ?_
  have hread := c.read_eq d hsource n
  rw [hrest, Node.bytes] at hread
  split
  next henough =>
    rw [if_pos henough] at hread
    obtain ⟨c', hread, hsource', hrest'⟩ := hread
    refine ⟨c', hread, hsource' ▸ .file hcontent, ?_⟩
    rw [hrest', List.drop_drop, Node.bytes]
  next hshort =>
    rw [if_neg hshort] at hread
    exact hread

end Cursor

namespace DataFile

variable {d : Disk} {c : Cursor} {node : Node} {data : Bytes} {position : Option Nat}
  {h : HeaderRecord}

/-- Whether or not the cursor has to be moved, it then stands at the offset. -/
theorem exists_place (hshows : d.Shows c.source node)
    (hposition : ∀ p, position = some p → c.StandsAt d node p) {offset : Nat}
    (hoffset : offset ≤ Cursor.maxPosition) :
    ∃ c', place c position offset = .ok c' ∧ c'.StandsAt d node offset := by
  rw [place]
  split
  next hp => exact ⟨c, rfl, hposition offset hp⟩
  · obtain ⟨c', hseek, hsource, hrest⟩ := c.seek_eq d hoffset
    rw [hshows.contentOf_eq] at hrest
    exact ⟨c', hseek, hsource ▸ hshows, hrest⟩

theorem bounds_of_validate (hvalid : h.validate maxEventTypeLength = .ok ()) :
    ¬(h.typeLength.toInt < 0 ∨ (maxEventTypeLength : Int) < h.typeLength.toInt) ∧
      ¬h.dataOffset.toInt < 0 ∧ ¬h.dataLength.toInt < 0 := by
  rw [HeaderRecord.validate] at hvalid
  split at hvalid
  · cases hvalid
  next htype =>
    split at hvalid
    · cases hvalid
    next hoffset =>
      split at hvalid
      · cases hvalid
      next hlength => exact ⟨htype, hoffset, hlength⟩

theorem eventIn_of_validate_error {fault : StorageFault}
    (hvalid : h.validate maxEventTypeLength = .error fault) (data : Bytes) :
    h.eventIn data = .error fault := by
  rw [HeaderRecord.validate] at hvalid
  rw [HeaderRecord.eventIn]
  split at hvalid
  next htype =>
    rw [if_pos htype]
    cases hvalid
    rfl
  next htype =>
    rw [if_neg htype]
    split at hvalid
    next hoffset =>
      rw [if_pos hoffset]
      cases hvalid
      rfl
    next hoffset =>
      rw [if_neg hoffset]
      split at hvalid
      next hlength =>
        rw [if_pos hlength]
        cases hvalid
        rfl
      · cases hvalid

/-- A data offset that is not negative is one that a cursor can be placed at. -/
theorem offset_of_nonneg (hoffset : ¬h.dataOffset.toInt < 0) :
    h.dataOffset.toUInt64.toNat = h.dataOffset.toInt.toNat ∧
      h.dataOffset.toInt.toNat ≤ Cursor.maxPosition := by
  have hint : h.dataOffset.toInt = h.dataOffset.toBitVec.toInt := rfl
  have hnat : h.dataOffset.toUInt64.toNat = h.dataOffset.toBitVec.toNat := rfl
  have hlt := h.dataOffset.toInt_lt
  rw [BitVec.toInt_eq_toNat_cond] at hint
  rw [Cursor.maxPosition]
  split at hint <;> omega

/-- What reading the event of a header comes to in a file. -/
theorem readEvent_of_file (hshows : d.Shows c.source (.file data))
    (hposition : ∀ p, position = some p → c.StandsAt d (.file data) p)
    (hvalid : h.validate maxEventTypeLength = .ok ()) :
    match h.eventIn data with
    | .ok e => ∃ c' p', readEvent d c position h = .ok (e, c', p') ∧
        c'.StandsAt d (.file data) p'
    | .error fault => readEvent d c position h = .error fault := by
  obtain ⟨htype, hoffset, hlength⟩ := bounds_of_validate hvalid
  obtain ⟨hcast, hmax⟩ := offset_of_nonneg hoffset
  obtain ⟨c₁, hplace, hstands₁⟩ := exists_place hshows hposition hmax
  generalize htypes : data.drop h.dataOffset.toInt.toNat = ahead
  have hread := Cursor.read_of_standsAt_file hstands₁ maxEventTypeLength
  rw [htypes] at hread
  simp only [readEvent, typeName, HeaderRecord.eventIn, hcast, hplace, if_neg htype, if_neg hoffset,
    if_neg hlength, bind, Except.bind, htypes]
  by_cases hbuffer : maxEventTypeLength ≤ ahead.length
  · rw [if_pos hbuffer] at hread
    obtain ⟨c₂, hread, hstands₂⟩ := hread
    have hfits : h.typeLength.toInt.toNat ≤ maxEventTypeLength := by omega
    simp only [hread, if_neg (Nat.not_lt.mpr hbuffer), List.take_take, Nat.min_eq_left hfits]
    cases Utf8.decode (ahead.take h.typeLength.toInt.toNat) with
    | error fault => rfl
    | ok cs =>
        have hthen := Cursor.read_of_standsAt_file hstands₂ h.dataLength.toInt.toNat
        rw [← List.drop_drop, htypes, List.length_drop] at hthen
        by_cases hpayload : maxEventTypeLength + h.dataLength.toInt.toNat ≤ ahead.length
        · rw [if_pos (by omega)] at hthen
          obtain ⟨c₃, hthen, hstands₃⟩ := hthen
          simp only [hthen, if_neg (Nat.not_lt.mpr hpayload)]
          by_cases hsequence : h.sequence.toInt < 0 ∨ 65535 < h.sequence.toInt
          · have hid : h.eventId = .error (.corrupt (.sequence h.sequence.toInt)) := by
              rw [HeaderRecord.eventId, if_neg (by omega)]
            simp only [hid, if_pos hsequence]
          · have hid : h.eventId =
                .ok ⟨h.timestamp, UInt16.ofNat h.sequence.toInt.toNat⟩ := by
              rw [HeaderRecord.eventId, if_pos (by omega)]
            simp only [hid, if_neg hsequence]
            exact ⟨c₃, _, rfl, Nat.add_assoc _ _ _ ▸ hstands₃⟩
        · rw [if_neg (by omega)] at hthen
          simp only [hthen, if_pos (Nat.not_le.mp hpayload)]
  · rw [if_neg hbuffer] at hread
    simp only [hread, if_pos (Nat.not_le.mp hbuffer)]

theorem readEvent_of_directory (hshows : d.Shows c.source .directory)
    (hposition : ∀ p, position = some p → c.StandsAt d .directory p)
    (hvalid : h.validate maxEventTypeLength = .ok ()) :
    readEvent d c position h = .error (.io (.disk .isDirectory)) := by
  obtain ⟨-, hoffset, -⟩ := bounds_of_validate hvalid
  obtain ⟨hcast, hmax⟩ := offset_of_nonneg hoffset
  obtain ⟨c', hplace, hstands⟩ := exists_place hshows hposition hmax
  have hread := Cursor.read_of_standsAt_directory hstands (n := maxEventTypeLength) (by decide)
  simp only [readEvent, hcast, hplace, hread, bind, Except.bind]

end DataFile

/-! ## Reading on from a position -/

namespace PendingHeaders

variable {d : Disk} {c : Cursor} {i : Nat}

theorem next_of_directory (hstands : c.StandsAt d .directory (i * HeaderRecord.size))
    (left : Nat) :
    (stored c (left + 1)).next d = some (.error (.io (.disk .isDirectory)), none) := by
  have hread := Cursor.read_of_standsAt_directory hstands (n := HeaderRecord.size) (by decide)
  simp only [next, hread]

theorem next_of_file {content : Bytes}
    (hstands : c.StandsAt d (.file content) (i * HeaderRecord.size)) (left : Nat)
    (hwithin : i < content.length / HeaderRecord.size) :
    match (HeaderRecord.nth content i).validate maxEventTypeLength with
    | .ok _ => ∃ c', (stored c (left + 1)).next d =
          some (.ok (HeaderRecord.nth content i), stored c' left) ∧
        c'.StandsAt d (.file content) ((i + 1) * HeaderRecord.size)
    | .error fault => (stored c (left + 1)).next d = some (.error fault, none) := by
  have hbytes : HeaderRecord.size ≤ (content.drop (i * HeaderRecord.size)).length := by
    rw [Nat.lt_iff_add_one_le, Nat.le_div_iff_mul_le (by decide), Nat.succ_mul] at hwithin
    rw [List.length_drop]
    exact Nat.le_sub_of_add_le' hwithin
  have hread := Cursor.read_of_standsAt_file hstands HeaderRecord.size
  rw [if_pos hbytes, ← Nat.succ_mul] at hread
  obtain ⟨c', hread, hstands'⟩ := hread
  have hdecode : HeaderRecord.decode ((content.drop (i * HeaderRecord.size)).take
      HeaderRecord.size) = HeaderRecord.nth content i := rfl
  simp only [next, hread, hdecode]
  cases (HeaderRecord.nth content i).validate maxEventTypeLength with
  | ok _ => exact ⟨c', rfl, hstands'⟩
  | error fault => rfl

end PendingHeaders

/-- A reader has a number of records ahead of it, from a position on. -/
structure PendingEvents.StandsAt (d : Disk) (p : PendingEvents) (headers data : Node)
    (i left : Nat) : Prop where
  ahead : ∃ c source, p.headers = .stored c left ∧ p.data = some source ∧
    c.StandsAt d headers (i * HeaderRecord.size) ∧ d.Shows source.source data ∧
    ∀ q, p.position = some q → source.StandsAt d data q
  within : left = 0 ∨ i + left ≤ headers.length / HeaderRecord.size

namespace PendingEvents

variable {d : Disk} {p : PendingEvents} {headers data : Node} {i left : Nat}

/-- Forget where the data file's cursor stands, so that the next record is sought. -/
def forget (p : PendingEvents) : PendingEvents := { p with position := .none }

theorem StandsAt.forget (h : p.StandsAt d headers data i left) :
    p.forget.StandsAt d headers data i left := by
  obtain ⟨⟨c, source, hheaders, hdata, hstands, hshows, -⟩, hwithin⟩ := h
  exact ⟨⟨c, source, hheaders, hdata, hstands, hshows, nofun⟩, hwithin⟩

theorem StandsAt.next_zero (h : p.StandsAt d headers data i 0) : p.next d false = .none := by
  obtain ⟨⟨c, source, hheaders, -⟩, -⟩ := h
  simp [next, PendingHeaders.next, hheaders]

/-- The next record is the one at the position. -/
theorem StandsAt.next_succ (h : p.StandsAt d headers data i (left + 1)) :
    match headers.eventAt data i with
    | .ok e => ∃ p', p.next d false = some (.ok e, p') ∧
        p'.StandsAt d headers data (i + 1) left
    | .error fault => p.next d false = some (.error fault, .none) := by
  obtain ⟨⟨c, source, hheaders, hdata, hstands, hshows, hposition⟩, hwithin⟩ := h
  replace hwithin := hwithin.resolve_left (Nat.succ_ne_zero left)
  simp only [next, Bool.false_eq_true, and_false, if_false, hheaders]
  cases headers with
  | directory =>
      rw [PendingHeaders.next_of_directory hstands]
      rfl
  | file headers =>
      rw [Node.length] at hwithin
      have hwithin' : i + 1 + left ≤ (Node.file headers).length / HeaderRecord.size := by
        rw [Node.length]
        omega
      have hnext := PendingHeaders.next_of_file hstands left (by omega)
      cases hvalid : (HeaderRecord.nth headers i).validate maxEventTypeLength with
      | error fault =>
          rw [hvalid] at hnext
          rw [hnext]
          cases data with
          | directory => simp only [Node.eventAt, hvalid, Except.bind]
          | file data =>
              simp only [Node.eventAt, DataFile.eventIn_of_validate_error hvalid data]
      | ok _ =>
          rw [hvalid] at hnext
          obtain ⟨c', hnext, hstands'⟩ := hnext
          rw [hnext]
          cases data with
          | directory =>
              have hevent := DataFile.readEvent_of_directory hshows hposition hvalid
              simp only [Node.eventAt, hvalid, Except.bind, hdata, hevent]
          | file data =>
              have hevent := DataFile.readEvent_of_file hshows hposition hvalid
              simp only [Node.eventAt, hdata]
              cases hfound : (HeaderRecord.nth headers i).eventIn data with
              | ok e =>
                  rw [hfound] at hevent
                  obtain ⟨source', q, hevent, hsource⟩ := hevent
                  simp only [hevent]
                  refine ⟨_, rfl, ⟨c', source', rfl, rfl, hstands', hsource.shows, ?_⟩,
                    .inr hwithin'⟩
                  rintro q' ⟨⟩
                  exact hsource
              | error fault =>
                  rw [hfound] at hevent
                  simp only [hevent]

/-- A reader gives the events at its positions, or the first failure. -/
theorem StandsAt.collectUpTo_eq (h : p.StandsAt d headers data i left) :
    collectUpTo d false left p = (List.range' i left).mapM (headers.eventAt data) := by
  induction left generalizing p i with
  | zero => rfl
  | succ left ih =>
      have hnext := h.next_succ
      rw [collectUpTo, List.range'_succ, List.mapM_cons]
      cases hevent : headers.eventAt data i with
      | ok e =>
          rw [hevent] at hnext
          obtain ⟨p', hnext, hstands⟩ := hnext
          rw [hnext]
          simp only [ih hstands]
          cases (List.range' (i + 1) left).mapM (headers.eventAt data) <;> rfl
      | error fault =>
          rw [hevent] at hnext
          rw [hnext]
          rfl

end PendingEvents

/-! ## Reading a stream -/

theorem Disk.exists?_eq_true {d : Disk} {p : Path} (h : d.exists? p = .ok true) :
    ∃ node, d.lookup p = .ok node := by
  rw [exists?] at h
  split at h
  next node hnode => exact ⟨node, hnode⟩
  · cases h
  · cases h

theorem Disk.lookup_of_read {d : Disk} {p : Path} {content : Bytes} (h : d.read p = .ok content) :
    d.lookup p = .ok (.file content) := by
  rw [read] at h
  split at h
  · cases h
  next hnode =>
    cases h
    exact hnode
  · cases h

theorem HeadersFile.stop_le (start : Nat) (take : Option Nat) (total : Nat) :
    HeadersFile.stop start take total ≤ total := by
  cases take with
  | none => exact Nat.le_refl total
  | some n => exact Nat.min_le_right _ _

/-- No position is behind the whole records of the headers file. -/
theorem lt_of_mem_positions {skip take : Option Nat} {total i : Nat}
    (h : i ∈ positions skip take total) : i < total := by
  have hstop := HeadersFile.stop_le (skip.getD 0) take total
  rw [positions, List.mem_range'_1] at h
  omega

namespace Archive

variable {a : Archive} {s : StreamId} {headers data : Node}

/-- A read of a stream whose files are there starts at its first position. -/
theorem exists_standsAt (hheaders : a.disk.lookup (a.extent s).headers = .ok headers)
    (hdata : a.disk.lookup (a.extent s).data = .ok data) (skip take : Option Nat) :
    let sequence := EventSequence.unopened (a.extent s) (.file skip take)
    let left := HeadersFile.stop (skip.getD 0) take (headers.length / HeaderRecord.size) -
      skip.getD 0
    a.read s skip take = .ok sequence ∧
      ∃ p, sequence.force a.disk = .ok p ∧ p.headers.size = left ∧ p.forget = p ∧
        p.StandsAt a.disk headers data (skip.getD 0) left := by
  obtain ⟨source, hopen, hshows⟩ := Disk.exists_shows hheaders
  obtain ⟨source', hopen', hshows'⟩ := Disk.exists_shows hdata
  have hread : a.read s skip take = .ok (.unopened (a.extent s) (.file skip take)) := by
    rw [extent] at hheaders hdata
    simp only [read, Extent.find?, Disk.exists?, hheaders, hdata, extent]
  have hstop := HeadersFile.stop_le (skip.getD 0) take (headers.length / HeaderRecord.size)
  let c : Cursor := { source, position := skip.getD 0 * HeaderRecord.size }
  have hstands : c.StandsAt a.disk headers (skip.getD 0 * HeaderRecord.size) := by
    refine ⟨hshows, ?_⟩
    rw [Cursor.rest, List.nil_append, hshows.contentOf_eq]
  refine ⟨hread, ⟨.stored c _, some { source := source' }, none⟩, ?_, rfl, rfl,
    ⟨⟨c, { source := source' }, rfl, rfl, hstands, hshows', fun _ h => by cases h⟩,
      by omega⟩⟩
  simp only [EventSequence.force, HeadersFile.open, hopen, hopen', HeadersFile.ahead,
    hshows.lengthOf_eq, Except.map, Option.map_some, c]

theorem readAll_of_lookup (hheaders : a.disk.lookup (a.extent s).headers = .ok headers)
    (hdata : a.disk.lookup (a.extent s).data = .ok data) (skip take : Option Nat) :
    a.readAll s skip take false =
      (positions skip take (headers.length / HeaderRecord.size)).mapM (headers.eventAt data) := by
  obtain ⟨hread, p, hforce, hsize, -, hstands⟩ := exists_standsAt hheaders hdata skip take
  rw [readAll, hread, Except.bind, EventSequence.collect, hforce, Except.bind,
    PendingEvents.collect, hsize]
  exact hstands.collectUpTo_eq

/-- Whatever a stream's files are, all its reads fail in the same way, or what stands at a position
is the same for all of them. -/
theorem readAll_cases (a : Archive) (s : StreamId) :
    (∃ fault, ∀ skip take, a.readAll s skip take false = .error fault) ∨
      ∃ total eventAt, ∀ skip take,
        a.readAll s skip take false = (positions skip take total).mapM eventAt := by
  have hnothing : ∀ skip take, (positions skip take 0).mapM
      (fun _ => .error .cancelled : Nat → Except StorageFault Event) = .ok [] := by
    intro skip take
    rw [positions, Nat.le_zero.mp (HeadersFile.stop_le _ take 0), Nat.zero_sub]
    rfl
  cases hheaders : a.disk.exists? (a.extent s).headers with
  | error fault =>
      left
      refine ⟨.io (.disk fault), fun skip take => ?_⟩
      rw [extent] at hheaders
      simp only [readAll, read, Extent.find?, hheaders, Except.bind]
  | ok present =>
      cases present with
      | false =>
          right
          refine ⟨0, fun _ => .error .cancelled, fun skip take => ?_⟩
          rw [extent] at hheaders
          rw [hnothing, readAll, read]
          simp only [Extent.find?, hheaders]
          rfl
      | true =>
          obtain ⟨node, hnode⟩ := Disk.exists?_eq_true hheaders
          rw [extent] at hheaders
          cases hdata : a.disk.exists? (a.extent s).data with
          | error fault =>
              left
              refine ⟨.io (.disk fault), fun skip take => ?_⟩
              rw [extent] at hdata
              simp only [readAll, read, Extent.find?, hheaders, hdata, Except.bind]
          | ok present =>
              right
              cases present with
              | false =>
                  refine ⟨0, fun _ => .error .cancelled, fun skip take => ?_⟩
                  rw [extent] at hdata
                  rw [hnothing, readAll, read]
                  simp only [Extent.find?, hheaders, hdata]
                  rfl
              | true =>
                  obtain ⟨node', hnode'⟩ := Disk.exists?_eq_true hdata
                  exact ⟨_, _, readAll_of_lookup hnode hnode'⟩

end Archive

end StreamStore
