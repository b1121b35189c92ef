import StreamStore.Proofs.Storage.Crash

/-!
# Streams with a file missing

A stream reads as empty as soon as one of its two files is missing.  An append
makes the missing file and writes behind what the other one holds.  A data file
left alone does no harm: its bytes stay behind, and no header points at them.
Headers left alone come back, for the new headers stand behind them and a reader
starts with the old ones.  So the next batch is the whole stream exactly where
no header byte was left, unless no event can come to the stream any more.
-/

namespace StreamStore

namespace Archive

variable {a a' : Archive} {s : StreamId} {events : List Event}

/-- The headers file or the data file of a stream is missing. -/
def IsHalved (a : Archive) (s : StreamId) : Prop :=
  a.disk.node? (a.extent s).headers = none ∨ a.disk.node? (a.extent s).data = none

/-- All events have types that fit a record. -/
def Fitting (events : List Event) : Prop :=
  ∀ e ∈ events, e.type.utf8ByteSize ≤ maxEventTypeLength

instance (events : List Event) : Decidable (Fitting events) :=
  inferInstanceAs (Decidable (∀ e ∈ events, e.type.utf8ByteSize ≤ maxEventTypeLength))

/-- The next batch that is appended to a stream is all that the stream then
holds. -/
def StartsAfresh (a : Archive) (s : StreamId) : Prop :=
  ∀ ys a', ys ≠ [] → Fitting ys → a.append s ys none = (.ok (), a') →
    a'.readAll s none none false = .ok ys ∧ a'.length s = .ok (some ys.length)

/-- A stream with a file missing reads as empty. -/
theorem readAll_of_isHalved (h : a.Sound) (hhalved : a.IsHalved s) (skip take : Option Nat)
    (cancelled : Bool) : a.readAll s skip take cancelled = .ok [] := by
  have hheaders := h.rooted.exists?_file (Extent.isFileOf_headers a.base s)
  have hdata := h.rooted.exists?_file (Extent.isFileOf_data a.base s)
  rcases hhalved with hmissing | hmissing
  · rw [extent] at hmissing
    rw [hmissing] at hheaders
    rw [readAll, read, Extent.find?, hheaders]
    rfl
  · rw [extent] at hmissing
    rw [hmissing] at hdata
    cases hnode : a.disk.node? (Extent.ofStream a.base s).headers with
    | none =>
        rw [hnode] at hheaders
        rw [readAll, read, Extent.find?, hheaders]
        rfl
    | some node =>
        rw [hnode] at hheaders
        simp only [readAll, read, Extent.find?, hheaders, hdata, Option.isSome_some,
          Option.isSome_none]
        rfl

/-! ## A batch with no header before it -/

/-- Behind no header byte, the new events are all that is stored, whatever the
data file held. -/
theorem Added.stores_of_bytesAt_eq_nil (hadded : a.Added s events a') (hne : events ≠ [])
    (hnone : a.disk.bytesAt (a.extent s).headers = []) :
    Extent.Stores a'.disk a'.base s events [] := by
  have hdata := hadded.data_node
  have hheaders := hadded.headers_node
  have hroom := hadded.room
  have hlength : (a.disk.bytesAt (a.extent s).data ++
      events.flatMap DataFile.record).length ≤ Disk.maxFile := by
    obtain ⟨first, rest, rfl⟩ := List.exists_cons_of_ne_nil hne
    rw [List.length_append]
    rw [List.flatMap_cons, List.length_append, DataFile.length_record] at hroom ⊢
    have hrecord : 0 < maxEventTypeLength := by decide
    omega
  rw [hnone, List.nil_append, ← List.append_nil (List.flatMap _ _)] at hheaders
  rw [hadded.base_eq]
  exact .present hheaders hdata hlength
    (DataFile.forall₂_holds_append hadded.payload hlength) (by decide)

theorem startsAfresh_of_bytesAt_eq_nil (h : a.Sound)
    (hnone : a.disk.bytesAt (a.extent s).headers = []) : a.StartsAfresh s := by
  intro ys a' hne hfits hrun
  have hadded := added_of_append h.rooted h.cache_sound hne hrun
  have hstores := hadded.stores_of_bytesAt_eq_nil hne hnone
  have hrooted := hadded.rooted
  have hnode := hadded.headers_node
  rw [← hadded.base_eq] at hrooted
  constructor
  · exact readAll_of_fits hrooted hstores hfits none none
  · rw [length_of_stores hrooted hstores, extent, hadded.base_eq]
    rw [extent] at hnode
    rw [hnode, Option.isSome_some, if_pos rfl]

/-! ## A batch behind headers that were left alone -/

/-- A completed append counts all headers that are in the file. -/
theorem Added.length_eq (hadded : a.Added s events a') :
    a'.length s = .ok (some
      ((a.disk.bytesAt (a.extent s).headers).length / HeaderRecord.size + events.length)) := by
  have hfile := Extent.isFileOf_headers a'.base s
  have hrooted := hadded.rooted
  have hnode := hadded.headers_node
  rw [extent, ← hadded.base_eq] at hnode
  rw [← hadded.base_eq] at hrooted
  rw [extent, ← hadded.base_eq]
  simp only [length, Extent.find?, hrooted.exists?_file hfile, hnode, Option.isSome_some,
    Extent.length, hrooted.length_file hfile hnode, List.length_append,
    HeaderRecord.length_flatMap_encode, DataFile.length_headersFrom, Except.map,
    Nat.add_mul_div_right _ _ (show 0 < HeaderRecord.size by decide)]

/-- Behind the start of a header, the one event of a batch is read from that
start, so an event whose timestamp starts with another byte is not read back. -/
theorem Added.readAll_ne_of_header_start {b : UInt8} {start : Bytes} {e : Event}
    (hadded : a.Added s [e] a')
    (hstart : a.disk.bytesAt (a.extent s).headers = b :: start)
    (hshort : (b :: start).length < HeaderRecord.size)
    (hbyte : e.id.timestamp.toUInt64.toNat % 256 ≠ b.toNat) :
    a'.readAll s none none false ≠ .ok [e] := by
  intro hread
  have hheaders := hadded.headers_node
  have hdata := hadded.data_node
  have hrooted := hadded.rooted
  rw [← hadded.base_eq] at hrooted
  rw [hstart, extent, ← hadded.base_eq] at hheaders
  rw [extent, ← hadded.base_eq] at hdata
  simp only [DataFile.headersFrom, List.flatMap_cons, List.flatMap_nil,
    List.append_nil] at hheaders
  generalize DataFile.header _ (TypeBuffer.ofType e.type) e = header at hheaders
  have htotal : (b :: start ++ header.encode).length / HeaderRecord.size = 1 := by
    rw [List.length_append, HeaderRecord.length_encode]
    rw [HeaderRecord.size] at hshort ⊢
    omega
  rw [readAll_files hrooted hheaders hdata, htotal] at hread
  have hrest : Cursor.rest a'.disk ⟨a'.disk.openedAt (a'.extent s).headers, 0, []⟩ =
      b :: (start ++ header.encode) := by
    rw [Cursor.rest, extent, Disk.contentOf_file _ hheaders]
    rfl
  simp only [HeadersFile.stop, Option.getD_none, Nat.sub_zero, Nat.zero_mul] at hread
  exact hbyte (PendingEvents.timestamp_of_collectUpTo_one rfl hrest hread)

/-- Where header bytes were left and some event can still come to the stream,
there is a batch that the stream does not start afresh with. -/
theorem not_startsAfresh_of_header_bytes (h : a.Sound)
    (hsome : a.disk.bytesAt (a.extent s).headers ≠ []) (hne : events ≠ [])
    (hfits : Fitting events)
    (hrun : a.append s events none = (.ok (), a')) : ¬a.StartsAfresh s := by
  intro hafresh
  have hadded := added_of_append h.rooted h.cache_sound hne hrun
  by_cases hwhole : HeaderRecord.size ≤ (a.disk.bytesAt (a.extent s).headers).length
  · have hlength := (hafresh events a' hne hfits hrun).2
    rw [hadded.length_eq] at hlength
    have hcount := Nat.div_pos hwhole (by decide)
    have heq := Option.some.inj (Except.ok.inj hlength)
    omega
  · obtain ⟨b, start, hstart⟩ := List.exists_cons_of_ne_nil hsome
    obtain ⟨timestamp, htimestamp⟩ := HeaderRecord.exists_timestamp_ne b
    obtain ⟨c, hrun'⟩ := h.exists_append_bare hadded hne ⟨timestamp, 0⟩
    have hadded' := added_of_append h.rooted h.cache_sound (List.cons_ne_nil _ _) hrun'
    rw [hstart] at hwhole
    refine hadded'.readAll_ne_of_header_start hstart (Nat.lt_of_not_le hwhole) htimestamp
      (hafresh _ c (List.cons_ne_nil _ _) ?_ hrun').1
    intro e he
    rw [List.mem_singleton.mp he]
    exact Nat.zero_le _

/-- A stream with a file missing reads as empty, and it starts afresh with its
next batch exactly where no header byte was left, unless no event of a proper
type can come to it any more. -/
theorem startsAfresh_iff_of_isHalved {a : Archive} {s : StreamId} (h : a.Sound)
    (hhalved : a.IsHalved s) :
    a.readAll s none none false = .ok [] ∧
      (a.StartsAfresh s ↔ a.disk.bytesAt (a.extent s).headers = [] ∨
        ∀ ys a', ys ≠ [] → Fitting ys → a.append s ys none ≠ (.ok (), a')) := by
  refine ⟨readAll_of_isHalved h hhalved none none false, ?_, ?_⟩
  · intro hafresh
    by_contra hneither
    push Not at hneither
    obtain ⟨hsome, ys, a', hne, hfits, hrun⟩ := hneither
    exact not_startsAfresh_of_header_bytes h hsome hne hfits hrun hafresh
  · rintro (hnone | hnothing)
    · exact startsAfresh_of_bytesAt_eq_nil h hnone
    · exact fun ys a' hne hfits hrun => (hnothing ys a' hne hfits hrun).elim

/-- An archive after a removal that the disk refused for the headers file. -/
def halved : Archive :=
  ((blank.append orders [placed] none).2.delete orders
    fun _ => { headers := some barred }).2

theorem sound_halved : halved.Sound := by
  have hblank : blank.Sound := ⟨vacant_blank.rooted, TypeCache.sound_empty⟩
  have hfirst : blank.append orders [placed] none =
      (.ok (), (blank.append orders [placed] none).2) := by
    refine Prod.ext ?_ rfl
    decide +kernel
  exact ((hblank.append hfirst).2.1.agreeOff_delete (Prod.eta _).symm).2.1

/-- The headers of a stream whose removal was refused come back with its next
batch. -/
theorem not_startsAfresh_after_refused_removal :
    halved.IsHalved orders ∧ halved.readAll orders none none false = .ok [] ∧
      ¬halved.StartsAfresh orders := by
  have hhalved : halved.IsHalved orders := by
    right
    decide +kernel
  have hsome : halved.disk.bytesAt (halved.extent orders).headers ≠ [] := by
    decide +kernel
  have hlater : halved.append orders [placed] none =
      (.ok (), (halved.append orders [placed] none).2) := by
    refine Prod.ext ?_ rfl
    decide +kernel
  obtain ⟨hempty, hafresh⟩ := startsAfresh_iff_of_isHalved sound_halved hhalved
  refine ⟨hhalved, hempty, fun hstarts => ?_⟩
  rcases hafresh.mp hstarts with hnone | hnothing
  · exact hsome hnone
  · refine hnothing [placed] _ (List.cons_ne_nil _ _) ?_ hlater
    decide

end Archive

end StreamStore
