import Mathlib.Data.List.Forall2
import StreamStore.Proofs.Engine.Steps
import StreamStore.Proofs.Storage.Cancelling

/-!
# Admitted events and what a header can say

A writer refuses a type name that is longer than a type buffer, so no type of an admitted event
is cut.  A payload it measures against the settings alone, and these are valid with any limit
above zero, while the length of a payload has to fit into a field of four bytes.  So all that a
writer admits can be stored exactly where the settings do not ask for more than that field holds.
-/

namespace StreamStore

/-! ## Settings that are valid -/

namespace Settings

/-- Settings are valid when every size is above zero, the share is one, and a bound of the write
queue leaves room. -/
theorem validate_eq_ok_iff {settings : Settings} :
    settings.validate = .ok () ↔ (∀ size ∈ settings.sizes, size.2 ≠ 0) ∧
      settings.evictionShare.isShare = true ∧ settings.writeQueueCapacity ≠ some 0 := by
  rw [validate, fault?]
  cases hzero : settings.sizes.find? fun size => size.2 = 0 with
  | some size =>
      have hsize := List.find?_some hzero
      simp only [reduceCtorEq, false_iff]
      intro h
      exact h.1 size (List.mem_of_find?_eq_some hzero) (of_decide_eq_true hsize)
  | none =>
      have hpos : ∀ size ∈ settings.sizes, size.2 ≠ 0 := fun size hmem heq =>
        List.find?_eq_none.mp hzero size hmem (decide_eq_true heq)
      cases hshare : settings.evictionShare.isShare with
      | false => simp
      | true =>
          by_cases hqueue : settings.writeQueueCapacity = some 0
          · simp [hqueue]
          · simp only [Bool.not_true, Bool.false_eq_true, if_false, if_neg hqueue]
            exact iff_of_true trivial ⟨hpos, trivial, hqueue⟩

theorem validate_defaults : validate {} = .ok () :=
  validate_eq_ok_iff.mpr ⟨by decide, by decide +kernel, by decide⟩

/-- Valid settings stay valid with any other limit above zero on the payload of an event. -/
theorem validate_of_limit_pos {settings : Settings} (hvalid : settings.validate = .ok ())
    {limit : Nat} (hpos : 0 < limit) :
    validate { settings with maxEventSize := limit } = .ok () := by
  rw [validate_eq_ok_iff] at hvalid ⊢
  obtain ⟨hsizes, hothers⟩ := hvalid
  refine ⟨?_, hothers⟩
  simp only [sizes, List.forall_mem_cons] at hsizes ⊢
  exact ⟨hsizes.1, hsizes.2.1, Nat.ne_of_gt hpos, hsizes.2.2.2⟩

end Settings

/-! ## Headers that describe events -/

namespace HeaderRecord

/-- A header passes the checks of a reader, and what it says is what the event has. -/
structure Describes (h : HeaderRecord) (e : Event) : Prop where
  validate_eq : h.validate maxEventTypeLength = .ok ()
  eventId_eq : h.eventId = .ok e.id
  typeLength_eq : h.typeLength.toInt = e.type.utf8ByteSize
  dataLength_eq : h.dataLength.toInt = e.data.length
  decode_eq : decode h.encode = h
  /-- The event comes back with the whole of its type. -/
  stored_eq : e.stored = e

end HeaderRecord

namespace DataFile

/-- A header describes the event that it holds with its data file, if the type is not cut. -/
theorem Holds.describes {data : Bytes} {h : HeaderRecord} {e : Event}
    (hholds : Holds data h e) (htype : e.type.utf8ByteSize ≤ maxEventTypeLength) :
    h.Describes e := by
  have hvalid := validate_of_holds hholds
  obtain ⟨offset, rfl, -, hpayload, -⟩ := hholds
  constructor
  · exact hvalid
  · exact eventId_header offset _ e
  · rw [typeLength_header, TypeBuffer.used_ofType_of_le htype]
  · rw [maxPayload] at hpayload
    exact Int32.toInt_ofNat_of_lt (by omega)
  · exact HeaderRecord.decode_encode _
  · exact Event.stored_of_fits htype

theorem forall₂_describes {data : Bytes} {headers : List HeaderRecord} {events : List Event}
    (hholds : List.Forall₂ (Holds data) headers events)
    (htype : ∀ e ∈ events, e.type.utf8ByteSize ≤ maxEventTypeLength) :
    List.Forall₂ HeaderRecord.Describes headers events := by
  induction hholds with
  | nil => exact .nil
  | cons hfirst _ ih =>
      refine .cons (hfirst.describes (htype _ List.mem_cons_self)) (ih fun e hmem => ?_)
      exact htype e (List.mem_cons_of_mem _ hmem)

/-! ## Appends that the events do not fail -/

/-- Where a payload is too long for a header, nothing of the batch is laid out. -/
theorem layOut_of_long {events : List Event}
    (hlong : ∃ e ∈ events, maxPayload < e.data.length) (offset : Nat) (cache : TypeCache) :
    ∃ cache' bytes, layOut none offset cache events =
      (⟨[], [], cache'⟩, .error (.io (.payloadTooLarge bytes))) := by
  induction events generalizing offset cache with
  | nil =>
      obtain ⟨_, hmem, -⟩ := hlong
      cases hmem
  | cons first events ih =>
      rw [layOut]
      simp only [Patience.look]
      by_cases hfirst : maxPayload < first.data.length
      · rw [if_pos hfirst]
        exact ⟨cache, first.data.length, rfl⟩
      · have hrest : ∃ e ∈ events, maxPayload < e.data.length := by
          obtain ⟨e, hmem, he⟩ := hlong
          rcases List.mem_cons.mp hmem with rfl | hmem
          · exact absurd he hfirst
          · exact ⟨e, hmem, he⟩
        obtain ⟨cache', bytes, hlaid⟩ := ih hrest
          (offset + ((cache.bufferOf first.type).1.bytes ++ first.data).length)
          (cache.bufferOf first.type).2
        rw [if_neg hfirst, hlaid]
        exact ⟨cache', bytes, rfl⟩

/-- An append, never cancelled, that fails at the disk alone and gives each event a header that
describes it. -/
def Takes (d : Disk) (extent : Extent) (cache : TypeCache) (events : List Event) : Prop :=
  match (append d extent cache events none).1 with
  | .ok (headers, _) => List.Forall₂ HeaderRecord.Describes headers events
  | .error fault => ∃ refusal, fault = .io (.disk refusal)

variable {d : Disk} {extent : Extent} {cache : TypeCache} {events : List Event}

/-- Events with whole types and payloads that a header can tell the length of do not fail an
append. -/
theorem takes_of_fits (hcache : cache.Sound)
    (htype : ∀ e ∈ events, e.type.utf8ByteSize ≤ maxEventTypeLength)
    (hpayload : ∀ e ∈ events, e.data.length ≤ maxPayload) : Takes d extent cache events := by
  rw [Takes, append]
  cases d.openForWriting extent.data with
  | error refusal => exact ⟨refusal, rfl⟩
  | ok opened =>
      obtain ⟨content, d₁⟩ := opened
      have hresult := layOut_snd_of_fits hpayload none content.length cache
      simp only
      generalize hlaid : layOut none content.length cache events = laidOut at hresult ⊢
      obtain ⟨laid, result⟩ := laidOut
      simp only [Patience.after] at hresult
      subst hresult
      obtain ⟨hbytes, hheaders, -⟩ := layOut_eq_ok hcache hlaid
      simp only
      generalize hwritten : d₁.extend extent.data content laid.bytes = written
      obtain ⟨outcome, d₂⟩ := written
      cases outcome with
      | error refusal => exact ⟨refusal, rfl⟩
      | ok _ =>
          obtain ⟨hroom, -⟩ := Disk.extend_eq_ok hwritten
          simp only [Except.map, hheaders]
          cases events with
          | nil => exact .nil
          | cons first rest =>
              have hlength : (content ++ (first :: rest).flatMap record).length ≤ Disk.maxFile := by
                have hpos : 0 < ((first :: rest).flatMap record).length := by
                  rw [List.flatMap_cons, List.length_append, length_record, maxEventTypeLength]
                  omega
                rw [hbytes] at hroom
                rw [List.length_append]
                omega
              exact forall₂_describes (forall₂_holds_append hpayload hlength) htype

/-- Where the data file opens, a payload that is too long fails an append. -/
theorem not_takes_of_long {content : Bytes} {d₁ : Disk}
    (hopen : d.openForWriting extent.data = .ok (content, d₁))
    (hlong : ∃ e ∈ events, maxPayload < e.data.length) : ¬Takes d extent cache events := by
  obtain ⟨cache', bytes, hlaid⟩ := layOut_of_long hlong content.length cache
  rw [Takes, append, hopen]
  simp only [hlaid, Disk.extend, List.length_nil, Nat.zero_le, if_true, Except.map]
  rintro ⟨refusal, hfault⟩
  cases hfault

end DataFile

/-! ## Batches that a writer admits -/

namespace Settings

/-- Every batch that a writer with these settings admits can be stored: once stamped, it does not
fail an append to a data file, which gives each event a header that describes it. -/
def StoresAdmitted (settings : Settings) : Prop :=
  ∀ drafts : List EventDraft, AppendRequest.fault? settings.maxEventSize 0 drafts = none →
    ∀ (last : Option EventId) (now : Int64) (d : Disk) (extent : Extent) (cache : TypeCache),
      cache.Sound → DataFile.Takes d extent cache (stamp last now drafts)

/-- All that a writer admits can be stored exactly where its limit is one that a header can
state: above that, a payload may come that is one byte too long. -/
theorem storesAdmitted_iff (settings : Settings) :
    settings.StoresAdmitted ↔ settings.maxEventSize ≤ DataFile.maxPayload := by
  constructor
  · intro hstores
    by_contra hlimit
    obtain ⟨data, hdata⟩ : ∃ data : Bytes, data.length = DataFile.maxPayload + 1 :=
      ⟨List.replicate (DataFile.maxPayload + 1) 0, List.length_replicate⟩
    have hadmitted : AppendRequest.fault? settings.maxEventSize 0 [⟨"placed", data⟩] = none := by
      rw [AppendRequest.fault?_eq_none_iff, List.forall_mem_singleton]
      refine ⟨?_, ?_, by simp only [hdata]; omega⟩
      · exact (by decide : "placed".utf8ByteSize ≠ 0)
      · exact (by decide : "placed".utf8ByteSize ≤ maxEventTypeLength)
    have htakes := hstores _ hadmitted none 0 {} ⟨Archive.orders, ["headers"], ["data"]⟩ {}
      TypeCache.sound_empty
    refine DataFile.not_takes_of_long rfl ⟨_, List.mem_cons_self, ?_⟩ htakes
    rw [EventDraft.withId, hdata]
    exact Nat.lt_succ_self _
  · intro hlimit drafts hadmitted last now d extent cache hcache
    rw [AppendRequest.fault?_eq_none_iff] at hadmitted
    apply DataFile.takes_of_fits hcache
    · exact type_le_of_mem_stamp fun draft hmem => (hadmitted draft hmem).2.1
    · intro e he
      obtain ⟨draft, hmem, heq⟩ := exists_draft_of_mem_stamp he
      rw [heq]
      exact (hadmitted draft hmem).2.2.trans hlimit

/-- Settings with a limit of two gibibytes are valid, and not all that is admitted can be stored. -/
theorem not_storesAdmitted_of_gibibytes :
    validate { maxEventSize := 2147483648 } = .ok () ∧
      ¬StoresAdmitted { maxEventSize := 2147483648 } := by
  refine ⟨validate_of_limit_pos validate_defaults (by decide), fun hstores => ?_⟩
  exact absurd ((storesAdmitted_iff _).mp hstores) (by decide)

end Settings

end StreamStore
