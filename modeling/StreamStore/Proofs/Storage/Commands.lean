import Mathlib.Logic.Function.Basic
import StreamStore.Proofs.Storage.Cancelling

/-!
# Archives as maps from streams to events

To its callers an archive is a map from streams to lists of events.  An append adds
its batch to one list, or the part of it whose headers were written when the token
was found cancelled; a removal empties one list; nothing else changes.  What carries
this through all appends and removals is that no header is ever torn, so the headers
file of a stream is a run of whole records, and that a stream has at least as many
data records as headers, so the data file is full before the headers file is.
-/

namespace StreamStore

/-! ## Events as they are read -/

/-- What a read gives for an event: the same event, but for a type name that is cut to
the longest leading part that fits. -/
structure Event.ReadAs (e read : Event) : Prop where
  id_eq : read.id = e.id
  data_eq : read.data = e.data
  type_prefix : read.type.toList <+: e.type.toList
  type_fits : read.type.utf8ByteSize ≤ maxEventTypeLength
  type_longest : ∀ cs, cs <+: e.type.toList →
    (String.ofList cs).utf8ByteSize ≤ maxEventTypeLength → cs <+: read.type.toList

theorem Event.readAs_stored (e : Event) : e.ReadAs e.stored := by
  have htype : e.stored.type.toList = Utf8.fitting maxEventTypeLength e.type.toList :=
    String.toList_ofList
  constructor
  · rfl
  · rfl
  · rw [htype]
    exact Utf8.fitting_prefix _ _
  · rw [← Utf8.length_encode_toList, htype]
    exact Utf8.length_encode_fitting _ _
  · intro cs hprefix hfits
    rw [Utf8.utf8ByteSize_ofList] at hfits
    rw [htype]
    exact Utf8.prefix_fitting hprefix hfits

/-! ## Commands and their histories -/

/-- What can be asked of an archive that changes it. -/
inductive Command where
  | append (s : StreamId) (events : List Event) (patience : Patience)
  | delete (s : StreamId)

namespace Command

def stream : Command → StreamId
  | append s _ _ => s
  | delete s => s

/-- The events of a batch that stay when an append with this outcome is over: all of
them, or those whose headers came before the look that found the token cancelled. -/
def kept (patience : Patience) (events : List Event) :
    Except StorageFault Unit → List Event
  | .ok () => events
  | .error .cancelled =>
    match patience with
    | some looks => events.take (looks - events.length)
    | none => []
  | .error _ => []

/-- The events of a stream after a command with this outcome. -/
def remember (s : StreamId) (before : List Event) :
    Command × Except StorageFault Unit → List Event
  | (append r events patience, outcome) =>
    if r = s then before ++ kept patience events outcome else before
  | (delete r, .ok ()) => if r = s then [] else before
  | (delete _, .error _) => before

/-- The events that some commands with their outcomes leave to a stream. -/
def history (s : StreamId) (log : List (Command × Except StorageFault Unit)) : List Event :=
  log.foldl (remember s) []

/-- A token that runs out among the records leaves nothing of the batch. -/
theorem kept_of_after_eq_none {patience : Patience} {events : List Event}
    (hafter : patience.after events.length = none) :
    kept patience events (.error .cancelled) = [] := by
  cases patience with
  | none => rfl
  | some looks =>
      rw [Patience.after] at hafter
      split at hafter
      · cases hafter
      next hlt =>
        simp only [kept]
        rw [Nat.sub_eq_zero_of_le (Nat.le_of_not_le hlt), List.take_zero]

/-- A token that lasts until the headers leaves those events whose headers come before
it runs out. -/
theorem kept_of_after_eq_some {patience left : Patience} {events : List Event}
    (hafter : patience.after events.length = some left) :
    kept patience events
        (if (left.after events.length).isSome then .ok () else .error .cancelled) =
      events.take (left.upTo events.length) := by
  cases hleft : left.after events.length with
  | some rest =>
      rw [Patience.upTo_of_after hleft, List.take_length]
      rfl
  | none =>
      cases patience with
      | none =>
          cases hafter
          cases hleft
      | some looks =>
          rw [Patience.after] at hafter
          split at hafter
          · cases hafter
            simp only [Option.isSome_none, Bool.false_eq_true, if_false, kept, Patience.upTo]
            rw [List.take_eq_take_iff]
            omega
          · cases hafter

/-- An append changes the list of its stream alone. -/
theorem remember_append (lists : StreamId → List Event) (s : StreamId) (events : List Event)
    (patience : Patience) (outcome : Except StorageFault Unit) :
    (fun r => remember r (lists r) (append s events patience, outcome)) =
      Function.update lists s (lists s ++ kept patience events outcome) := by
  funext r
  rw [remember, Function.update_apply]
  by_cases hr : s = r
  · subst hr
    rw [if_pos rfl]
  · rw [if_neg hr, if_neg (Ne.symm hr)]

/-- A removal changes the list of its stream alone. -/
theorem remember_delete (lists : StreamId → List Event) (s : StreamId) :
    (fun r => remember r (lists r) (delete s, .ok ())) = Function.update lists s [] := by
  funext r
  rw [remember, Function.update_apply]
  by_cases hr : s = r
  · subst hr
    rw [if_pos rfl]
  · rw [if_neg hr, if_neg (Ne.symm hr)]

end Command

namespace Archive

def execute (a : Archive) : Command → Except StorageFault Unit × Archive
  | .append s events patience => a.append s events patience
  | .delete s => a.delete s fun _ => {}

/-- Commands in a row, with the outcome of each. -/
def executeAll (a : Archive) :
    List Command → List (Command × Except StorageFault Unit) × Archive
  | [] => ([], a)
  | command :: commands =>
    let rest := (a.execute command).2.executeAll commands
    ((command, (a.execute command).1) :: rest.1, rest.2)

/-! ## One command -/

/-- An archive stores these lists of events, with no torn header, and with at least as
many data records as headers. -/
structure Stocks (a : Archive) (lists : StreamId → List Event) : Prop where
  sound : a.Sound
  stores : ∀ s, Extent.Stores a.disk a.base s (lists s) []
  records : ∀ s, (lists s).length * maxEventTypeLength ≤
    (a.disk.bytesAt (a.extent s).data).length

variable {a a' : Archive} {s : StreamId} {events : List Event} {patience : Patience}
  {outcome : Except StorageFault Unit} {lists : StreamId → List Event}

theorem stocks_of_vacant (hvacant : a.disk.Vacant a.base) (hcache : a.cache.Sound) :
    a.Stocks fun _ => [] where
  sound := ⟨hvacant.rooted, hcache⟩
  stores := Extent.stores_nil_of_vacant hvacant
  records s := by
    rw [List.length_nil, Nat.zero_mul]
    exact Nat.zero_le _

/-- What is stocked for one stream is out of reach for changes at another. -/
theorem Stocks.of_agreeOff (h : a.Stocks lists) (hsound : a'.Sound) (hbase : a'.base = a.base)
    (hagree : Disk.AgreeOff (Extent.IsPlaceOf a.base s) a.disk a'.disk) {list : List Event}
    (hstores : Extent.Stores a'.disk a'.base s list [])
    (hrecords : list.length * maxEventTypeLength ≤
      (a'.disk.bytesAt (a'.extent s).data).length) :
    a'.Stocks (Function.update lists s list) := by
  refine ⟨hsound, fun r => ?_, fun r => ?_⟩
  · by_cases hr : r = s
    · subst hr
      rw [Function.update_self]
      exact hstores
    · rw [Function.update_of_ne hr, hbase]
      exact (h.stores r).of_agreeOff hagree hr
  · by_cases hr : r = s
    · subst hr
      rw [Function.update_self]
      exact hrecords
    · have hdata := Extent.isFileOf_data a.base r
      have hoff : ¬Extent.IsPlaceOf a.base s (Extent.ofStream a.base r).data := by
        rintro (hplace | hplace)
        · exact hdata.ne_typeDirectory s.type hplace
        · exact hr (hdata.eq hplace)
      rw [Function.update_of_ne hr, extent, hbase, Disk.bytesAt_congr (hagree _ hoff)]
      exact h.records r

/-- Where the records fit into the data file, their headers fit into the headers file. -/
theorem Stocks.headers_room (h : a.Stocks lists)
    (hroom : (events.flatMap DataFile.record).length ≤
      Disk.maxFile - (a.disk.bytesAt (a.extent s).data).length) :
    events.length * HeaderRecord.size ≤
      Disk.maxFile - (a.disk.bytesAt (a.extent s).headers).length := by
  have hheaders := (h.stores s).length_bytesAt.1
  have hdata := (h.stores s).length_data_le
  have hrecords := h.records s
  have hlength := DataFile.length_le_length_flatMap_record events
  rw [List.length_nil, Nat.add_zero] at hheaders
  rw [extent] at hrecords hroom
  rw [extent, hheaders]
  simp only [HeaderRecord.size, maxEventTypeLength] at *
  omega

/-- Where the records fit into the data file, all headers fit that are still written. -/
theorem Stocks.headers_fit (h : a.Stocks lists)
    (hroom : (events.flatMap DataFile.record).length ≤
      Disk.maxFile - (a.disk.bytesAt (a.extent s).data).length) {n offset : Nat} {written : Bytes}
    (hwritten : written =
      ((DataFile.headersFrom offset events).take n).flatMap HeaderRecord.encode) :
    written.length ≤ Disk.maxFile - (a.disk.bytesAt (a.extent s).headers).length := by
  rw [hwritten, HeaderRecord.length_flatMap_encode]
  refine Nat.le_trans (Nat.mul_le_mul_right _ (List.length_take_le' _ _)) ?_
  rw [DataFile.length_headersFrom]
  exact h.headers_room hroom

/-- An append keeps of its batch what its outcome says. -/
theorem Stocks.append (h : a.Stocks lists)
    (hrun : a.append s events patience = (outcome, a')) :
    a'.base = a.base ∧ Disk.AgreeOff (Extent.IsPlaceOf a.base s) a.disk a'.disk ∧
      a'.Stocks (Function.update lists s (lists s ++ Command.kept patience events outcome)) := by
  by_cases hne : events = []
  · subst hne
    cases hrun
    rw [Command.kept, List.append_nil, Function.update_eq_self]
    exact ⟨rfl, fun _ _ => rfl, h⟩
  obtain ⟨hbase, hsound, hagree, hcame⟩ := h.sound.came_append hne hrun
  have hextent : a'.extent s = a.extent s := by rw [extent, extent, hbase]
  cases hcame with
  | @amongRecords fault behind hcancelled _ hheaders hdata hbehind =>
      have hkept : Command.kept patience events (.error fault) = [] := by
        cases fault with
        | cancelled => exact Command.kept_of_after_eq_none (hcancelled rfl)
        | io fault => rfl
        | corrupt fault => rfl
        | deleteFailed attempts fault => rfl
      rw [hkept, List.append_nil]
      refine ⟨hbase, hagree, h.of_agreeOff hsound hbase hagree ?_ ?_⟩
      · rw [hbase]
        exact (h.stores s).extend_data hheaders hdata hbehind
      · rw [hextent, Disk.bytesAt_eq hdata, List.length_append]
        exact Nat.le_trans (h.records s) (Nat.le_add_right _ _)
  | @amongHeaders left written hafter hpayload hroom hdata hwritten hheaders =>
      have hfit := h.headers_fit hroom hwritten
      rw [if_pos hfit, Command.kept_of_after_eq_some hafter]
      rw [List.take_of_length_le hfit, hwritten, ← List.append_nil (List.flatMap _ _)] at hheaders
      refine ⟨hbase, hagree, h.of_agreeOff hsound hbase hagree ?_ ?_⟩
      · rw [hbase]
        exact (h.stores s).extend_headers hpayload hroom hdata hheaders (by decide)
      · rw [hextent, Disk.bytesAt_eq hdata, List.length_append, List.length_append,
          Nat.add_mul]
        refine Nat.add_le_add (h.records s) ?_
        exact Nat.le_trans (Nat.mul_le_mul_right _ (List.length_take_le' _ _))
          (DataFile.length_le_length_flatMap_record events)

/-- Where there is room, an append comes to its end unless one of its looks finds the
token cancelled. -/
theorem Stocks.append_fst (h : a.Stocks lists)
    (hpayload : ∀ e ∈ events, e.data.length ≤ DataFile.maxPayload)
    (hroom : (events.flatMap DataFile.record).length ≤
      Disk.maxFile - (a.disk.bytesAt (a.extent s).data).length) :
    (a.append s events patience).1 =
      if (patience.after (events.length + events.length)).isSome then .ok ()
      else .error .cancelled := by
  by_cases hne : events = []
  · subst hne
    rw [List.length_nil, Nat.add_zero, Patience.after_zero]
    rfl
  generalize hrun : a.append s events patience = run
  obtain ⟨outcome, a'⟩ := run
  obtain ⟨-, -, -, hcame⟩ := h.sound.came_append hne hrun
  cases hcame with
  | amongRecords hcancelled hfits =>
      have hfault := hfits hpayload hroom
      rw [hfault, Patience.after_add_eq_none (hcancelled hfault)]
      rfl
  | amongHeaders hafter _ _ _ hwritten =>
      rw [Patience.after_add hafter]
      exact if_pos (h.headers_fit hroom hwritten)

/-- A removal that nothing interferes with leaves nothing. -/
theorem Stocks.delete (h : a.Stocks lists)
    (hrun : a.delete s (fun _ => {}) = (outcome, a')) :
    outcome = .ok () ∧ a'.base = a.base ∧
      Disk.AgreeOff (Extent.IsPlaceOf a.base s) a.disk a'.disk ∧
      a'.Stocks (Function.update lists s []) := by
  have hok : outcome = .ok () := by
    have hfirst := h.sound.rooted.remove_extent_fst s a.deleteAttempts
    rw [← hfirst]
    exact (congrArg Prod.fst hrun).symm
  subst hok
  obtain ⟨hbase, hsound, hstores, hagree⟩ := h.sound.delete hrun
  refine ⟨rfl, hbase, hagree, h.of_agreeOff hsound hbase hagree ?_ ?_⟩
  · exact hstores
  · rw [List.length_nil, Nat.zero_mul]
    exact Nat.zero_le _

theorem Stocks.execute (h : a.Stocks lists) (command : Command) :
    (a.execute command).2.base = a.base ∧
      Disk.AgreeOff (Extent.IsPlaceOf a.base command.stream) a.disk
        (a.execute command).2.disk ∧
      (a.execute command).2.Stocks fun s =>
        Command.remember s (lists s) (command, (a.execute command).1) := by
  cases command with
  | append s events patience =>
      obtain ⟨hbase, hagree, hstocks⟩ := h.append (Prod.eta (a.append s events patience)).symm
      rw [Archive.execute, Command.remember_append]
      exact ⟨hbase, hagree, hstocks⟩
  | delete s =>
      obtain ⟨hok, hbase, hagree, hstocks⟩ := h.delete (Prod.eta (a.delete s _)).symm
      rw [Archive.execute, hok, Command.remember_delete]
      exact ⟨hbase, hagree, hstocks⟩

/-! ## All commands -/

theorem Stocks.executeAll (h : a.Stocks lists) (commands : List Command) :
    (a.executeAll commands).2.Stocks fun s =>
      (a.executeAll commands).1.foldl (Command.remember s) (lists s) := by
  induction commands generalizing a lists with
  | nil => exact h
  | cons command commands ih =>
      obtain ⟨-, -, hstocks⟩ := h.execute command
      exact ih hstocks

/-- An archive is a map from streams to lists of events: reads give the lists, and a
command does to one list what its outcome says, and nothing to the others. -/
structure Refines (a : Archive) (lists : StreamId → List Event) : Prop where
  read : ∀ s, ∃ found, a.readAll s none none false = .ok found ∧
    List.Forall₂ Event.ReadAs (lists s) found
  append_outcome : ∀ s events (patience : Patience),
    (∀ e ∈ events, e.data.length ≤ DataFile.maxPayload) →
    (events.flatMap DataFile.record).length ≤
      Disk.maxFile - (a.disk.bytesAt (a.extent s).data).length →
    (a.append s events patience).1 =
      if (patience.after (events.length + events.length)).isSome then .ok ()
      else .error .cancelled
  delete_outcome : ∀ s, (a.execute (.delete s)).1 = .ok ()
  other_files : ∀ (command : Command) s p, s ≠ command.stream → Extent.IsFileOf a.base s p →
    (a.execute command).2.disk.node? p = a.disk.node? p
  other_reads : ∀ (command : Command) s skip take cancelled, s ≠ command.stream →
    (a.execute command).2.readAll s skip take cancelled = a.readAll s skip take cancelled

theorem Stocks.refines (h : a.Stocks lists) : a.Refines lists := by
  constructor
  · intro s
    refine ⟨(lists s).map Event.stored, ?_, ?_⟩
    · rw [readAll_of_stores h.sound.rooted (h.stores s), if_neg (by simp)]
      rfl
    · rw [List.forall₂_map_right_iff]
      exact List.forall₂_same.mpr fun e _ => e.readAs_stored
  · intro s events patience hpayload hroom
    exact h.append_fst hpayload hroom
  · intro s
    exact (h.delete (Prod.eta (a.delete s _)).symm).1
  · intro command s p hs hp
    obtain ⟨-, hagree, -⟩ := h.execute command
    refine hagree p ?_
    rintro (hplace | hplace)
    · exact hp.ne_typeDirectory _ hplace
    · exact hs (hp.eq hplace)
  · intro command s skip take cancelled hs
    obtain ⟨hbase, hagree, hstocks⟩ := h.execute command
    have hstores := (h.stores s).of_agreeOff hagree hs
    rw [← hbase] at hstores
    rw [readAll_of_stores hstocks.sound.rooted hstores,
      readAll_of_stores h.sound.rooted (h.stores s)]

/-- Whatever is appended and removed from an empty base directory on, and wherever
tokens are found cancelled, the archive stays the map from streams to what the
commands leave to them. -/
theorem refines_executeAll (hvacant : a.disk.Vacant a.base) (hcache : a.cache.Sound)
    (commands : List Command) :
    (a.executeAll commands).2.Refines fun s =>
      Command.history s (a.executeAll commands).1 :=
  ((stocks_of_vacant hvacant hcache).executeAll commands).refines

/-- Another event to append. -/
def paid : Event := ⟨⟨6, 0⟩, "paid", [3]⟩

/-- Two appends that are cancelled, the first before its second header and the second
before its second data record, and then one that is not, with another stream appended to
and removed in between. -/
def cancelling : List Command :=
  [.append orders [placed, paid] (some 3), .append orders [paid, placed] (some 1),
    .append ⟨Uuid.ofNat 2, orders.type⟩ [paid] none, .append orders [paid] none,
    .delete ⟨Uuid.ofNat 2, orders.type⟩]

theorem refines_after_cancelling :
    ((blank.executeAll cancelling).2.Refines fun s =>
        Command.history s (blank.executeAll cancelling).1) ∧
      (blank.executeAll cancelling).1.map (fun row => row.2.toBool) =
        [false, false, true, true, true] ∧
      Command.history orders (blank.executeAll cancelling).1 = [placed, paid] :=
  ⟨refines_executeAll vacant_blank TypeCache.sound_empty cancelling, by decide +kernel,
    by decide +kernel⟩

end Archive

end StreamStore
