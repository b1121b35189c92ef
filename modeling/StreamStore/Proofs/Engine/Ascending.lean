import StreamStore.Proofs.Engine.Histories
import StreamStore.Proofs.Event.Identities

/-!
# Identities over whole runs

A writer stamps its batch behind the last event that it sees, which is the last one of
what is shown of the stream.  What a failed write did not put on disk is missing from
what is due from then on, and once the entry is made anew it is not shown either; the
next batch is then stamped behind an earlier event.  But what is due always stays a part
of what is shown, in the same order.  So both go on in the order of the identities,
through evictions and from one run over the directory to the next, whatever the clock
shows.

This is said of streams that are intact, and as long as no write leaves a torn header:
what comes behind one is out of step.
-/

namespace StreamStore

/-! ## Identities that are used up -/

/-- A happening that gives an event of a stream the greatest identity. -/
def Happening.exhausts (s : StreamId) : Happening → Bool
  | admitted _ r events => decide (r.stream = s) && events.any (·.id = .greatest)
  | _ => false

/-- No event of a stream has the greatest identity. -/
def Log.Unexhausted (s : StreamId) (log : List Happening) : Prop :=
  ∀ happening ∈ log, happening.exhausts s = false

instance (s : StreamId) (log : List Happening) : Decidable (Log.Unexhausted s log) :=
  List.decidableBAll _ log

variable {s : StreamId} {log more deeds : List Happening}

theorem Log.unexhausted_append :
    Unexhausted s (log ++ more) ↔ Unexhausted s log ∧ Unexhausted s more := by
  simp only [Unexhausted, List.mem_append, or_imp, forall_and]

theorem Log.Unexhausted.of_admitted {t : TaskId} {r : AppendRequest} {events : List Event}
    (h : Unexhausted r.stream [.admitted t r events]) : ∀ e ∈ events, e.id ≠ .greatest := by
  have hnone := h _ List.mem_cons_self
  rw [Happening.exhausts, decide_eq_true rfl, Bool.true_and, List.any_eq_false] at hnone
  exact fun e he heq => hnone e he (decide_eq_true heq)

/-! ## Steps -/

/-- What is shown is in the order of the identities, none of which is the greatest, and
what is due is a part of it. -/
structure Climbs (due shown : List Event) : Prop where
  ascending : Event.Ascending shown
  part : due.Sublist shown
  less : ∀ e ∈ shown, e.id ≠ .greatest

namespace Climbs

variable {due shown due' shown' : List Event}

theorem nil : Climbs [] [] := ⟨.nil, .refl [], List.forall_mem_nil _⟩

/-- A part of what is due may be all that is left. -/
theorem sublist (h : Climbs due shown) (hpart : due'.Sublist due) : Climbs due' due' where
  ascending := h.ascending.sublist (hpart.trans h.part)
  part := .refl due'
  less := fun e he => h.less e ((hpart.trans h.part).subset he)

/-- Whatever one step does, what is due and what is shown stay in order. -/
theorem flow (h : Climbs due shown) (hflow : Engine.Flow s deeds due shown due' shown')
    (hless : Log.Unexhausted s deeds) : Climbs due' shown' := by
  cases hflow with
  | still hstill => exact h
  | handOff hstream hdeeds hstamp =>
      subst hstream hdeeds hstamp
      have hless' := List.forall_mem_append.mpr ⟨h.less, hless.of_admitted⟩
      exact ⟨h.ascending.append_stamp hless', h.part.append_right _, hless'⟩
  | lose hdeeds hpart => exact ⟨h.ascending, hpart.trans h.part, h.less⟩
  | reload hdeeds => exact h.sublist (.refl due)

end Climbs

namespace Engine

variable {e e' : Engine} {st : TaskId → Stance} {t : TaskId} {σ : Stance}

/-- What an engine holds of a stream is in order. -/
def Ascends (e : Engine) (st : TaskId → Stance) (s : StreamId) : Prop :=
  ∃ due shown, e.Carries st s due shown ∧ Climbs due shown

/-- Every step that leaves no torn header keeps what is held of a stream in order. -/
theorem ascends_of_change (h : Log.Intact s log → e.Ascends st s) (hsound : e.archive.Sound)
    (hsettled : e.Settled st) (hchange : Change e t (st t) deeds e' σ)
    (hwhole : ¬e'.archive.IsTorn s) (hless : Log.Unexhausted s deeds)
    (hintact : Log.Intact s (log ++ deeds)) : e'.Ascends (Function.update st t σ) s := by
  rcases carries_of_change hsound hsettled hchange (fun _ _ => hwhole) hintact with
    ⟨-, hcarries⟩ | ⟨hbefore, hflows⟩
  · exact ⟨[], [], hcarries, .nil⟩
  · obtain ⟨due, shown, hcarries, hclimbs⟩ := h hbefore
    obtain ⟨due', shown', hflow, hcarries'⟩ := hflows due shown hcarries
    exact ⟨due', shown', hcarries', hclimbs.flow hflow hless⟩

end Engine

/-! ## Runs one after another -/

namespace Moment

/-- The moments of runs over a directory that was empty at first, as long as no move
leaves a torn header of a stream: a run makes moves, and at any moment another run may
start over what is on disk by then, with other settings and another clock.  The log of
the earlier runs is their past. -/
inductive Reached (s : StreamId) : List Happening → Moment → Prop
  | opening {archive : Archive} (hvacant : archive.disk.Vacant archive.base)
      (settings : Settings) (clock : Int64) : Reached s [] (opening settings archive clock)
  | move {past : List Happening} {m m' : Moment} {mv : Move} (h : Reached s past m)
      (hmove : m.move mv = some m') (hwhole : ¬m'.system.engine.archive.IsTorn s) :
      Reached s past m'
  | restart {past : List Happening} {m : Moment} (h : Reached s past m)
      (settings : Settings) (clock : Int64) :
      Reached s (past ++ m.log) (Moment.opening settings m.system.engine.archive clock)

/-- What is kept over whole runs. -/
structure KeepsOrder (m : Moment) (past : List Happening) (s : StreamId) : Prop where
  orderly : m.Orderly
  settled : m.system.engine.Settled m.stances
  sound : m.system.engine.archive.Sound
  ascends : Log.Unexhausted s (past ++ m.log) → Log.Intact s (past ++ m.log) →
    m.system.engine.Ascends m.stances s

variable {past : List Happening} {m m' : Moment}

/-- A run that starts over events in order keeps them so. -/
theorem keepsOrder_opening {archive : Archive} (hrooted : archive.disk.Rooted archive.base)
    (hstored : Log.Unexhausted s past → Log.Intact s past → ∃ stored,
      Extent.Stores archive.disk archive.base s stored [] ∧
        (∀ ev ∈ stored, ev.type.utf8ByteSize ≤ maxEventTypeLength) ∧ Climbs stored stored)
    (settings : Settings) (clock : Int64) :
    (Moment.opening settings archive clock).KeepsOrder past s := by
  refine ⟨orderly_opening settings archive clock, ?_, ⟨hrooted, TypeCache.sound_empty⟩,
    fun hless hintact => ?_⟩
  · rw [stances_opening]
    exact .of_archive settings archive clock
  · have hlog : past ++ (Moment.opening settings archive clock).log = past :=
      List.append_nil past
    rw [hlog] at hless hintact
    obtain ⟨stored, hstores, hfits, hclimbs⟩ := hstored hless hintact
    rw [stances_opening]
    exact ⟨stored, stored, Engine.carries_of_stores hstores hfits settings clock, hclimbs⟩

theorem KeepsOrder.move (h : m.KeepsOrder past s) {mv : Move}
    (hmove : m.move mv = some m') (hwhole : ¬m'.system.engine.archive.IsTorn s) :
    m'.KeepsOrder past s := by
  obtain ⟨horderly, t, deeds, σ, hchange, hstances, remarks, hlog, hremarks⟩ :=
    h.orderly.move hmove
  obtain ⟨-, hsound⟩ := Engine.sound_of_change h.sound h.settled hchange
  refine ⟨horderly, ?_, hsound, fun hless hintact => ?_⟩
  · rw [hstances]
    exact h.settled.change hchange
  · rw [hlog, ← List.append_assoc, ← List.append_assoc] at hless hintact
    obtain ⟨hbefore, -⟩ := Log.unexhausted_append.mp hless
    obtain ⟨hbefore, hdeeds⟩ := Log.unexhausted_append.mp hbefore
    rw [hstances]
    exact Engine.ascends_of_change (h.ascends hbefore) h.sound h.settled hchange hwhole hdeeds
      (hintact.of_append fun u hmem => hremarks _ hmem)

/-- Another run starts over what is on disk, which is the beginning of what is due. -/
theorem KeepsOrder.restart (h : m.KeepsOrder past s) (settings : Settings) (clock : Int64) :
    (Moment.opening settings m.system.engine.archive clock).KeepsOrder (past ++ m.log) s := by
  refine keepsOrder_opening h.sound.rooted (fun hless hintact => ?_) settings clock
  obtain ⟨due, shown, hcarries, hclimbs⟩ := h.ascends hless hintact
  obtain ⟨stored, hstores, rfl⟩ := hcarries.stored
  exact ⟨stored, hstores, fun ev hev => hcarries.fits ev (List.mem_append_left _ hev),
    hclimbs.sublist (List.sublist_append_left stored _)⟩

theorem keepsOrder_of_reached (h : Reached s past m) : m.KeepsOrder past s := by
  induction h with
  | opening hvacant settings clock =>
      exact keepsOrder_opening hvacant.rooted (fun _ _ => ⟨[],
        Extent.stores_nil_of_vacant hvacant s, List.forall_mem_nil _, .nil⟩) settings clock
  | move _ hmove hwhole ih => exact ih.move hmove hwhole
  | restart _ settings clock ih => exact ih.restart settings clock

/-- What can be read of a stream and what its entry has are in the order of the
identities. -/
structure Ascends (m : Moment) (s : StreamId) : Prop where
  stored : ∃ stored, m.system.engine.archive.readAll s none none false = .ok stored ∧
    Event.Ascending stored
  resident : ∀ n, m.system.engine.resident? s = some n →
    Event.Ascending (m.system.engine.entry n).events

/-- In runs over a directory, whatever the clock shows and however writes fail that leave
whole headers, a stream is in the order of the identities, on disk and in its entry. -/
theorem ascends_of_reached (h : Reached s past m) (hintact : Log.Intact s (past ++ m.log))
    (hless : Log.Unexhausted s (past ++ m.log)) : m.Ascends s := by
  have hkept := keepsOrder_of_reached h
  obtain ⟨due, shown, hcarries, hclimbs⟩ := hkept.ascends hless hintact
  constructor
  · obtain ⟨stored, hread, rfl⟩ := hcarries.exists_readAll hkept.sound
    exact ⟨stored, hread,
      (hclimbs.sublist (List.sublist_append_left stored _)).ascending⟩
  · intro n hresident
    exact hclimbs.ascending.sublist (hcarries.shows n (.inl hresident)).isPrefix.sublist

/-- The moment after some moves, as long as none leaves a torn header of a stream. -/
def playWhole (s : StreamId) (m : Moment) (moves : List Move) : Option Moment :=
  moves.foldlM (fun m mv =>
    (m.move mv).filter fun m' => !decide (m'.system.engine.archive.IsTorn s)) m

theorem Reached.playWhole {moves : List Move} (h : Reached s past m)
    (hrun : m.playWhole s moves = some m') : Reached s past m' := by
  induction moves generalizing m with
  | nil =>
      cases hrun
      exact h
  | cons mv moves ih =>
      rw [Moment.playWhole, List.foldlM_cons] at hrun
      obtain ⟨a, ha, hrest⟩ := Option.bind_eq_some_iff.mp hrun
      obtain ⟨hmove, hwhole⟩ := Option.filter_eq_some_iff.mp ha
      refine ih (h.move hmove ?_) hrest
      rwa [Bool.not_eq_true', decide_eq_false_iff_not] at hwhole

/-- Events of a stream to be appended. -/
def posting (types : List String) : Move :=
  .start (.append ⟨Archive.orders, types.map (⟨·, []⟩), none⟩ .start) false

/-- The clock goes back after the first event.  The disk fails the write of the next two
behind the header of the first one of them; then the entry is evicted, and another event
is appended. -/
def failing : List Move := List.flatten [
  [posting ["placed"]], List.replicate 17 (.step 1 {}), List.replicate 6 (.step 0 {}),
  [.tick 50, posting ["paid", "sent"]], List.replicate 11 (.step 2 {}),
  List.replicate 2 (.step 0 {}), [.step 0 { writeCut := some 154 }],
  List.replicate 3 (.step 0 {}), [.evict 1, posting ["returned"]],
  List.replicate 17 (.step 3 {}), List.replicate 6 (.step 0 {})]

/-- Another event is appended in a later run. -/
def returning : List Move := List.flatten [
  [posting ["closed"]], List.replicate 17 (.step 1 {}), List.replicate 6 (.step 0 {})]

theorem ascends_of_returning :
    ∃ past m, Reached Archive.orders past m ∧
      (m.system.engine.archive.readAll Archive.orders none none false).toOption.map
        (·.map (·.type)) = some ["placed", "paid", "returned", "closed"] ∧
      Log.Intact Archive.orders (past ++ m.log) ∧
      Log.Unexhausted Archive.orders (past ++ m.log) ∧ m.Ascends Archive.orders := by
  have hplayed : ((Moment.opening {} Archive.blank 100).playWhole Archive.orders failing).any
      (fun a => ((Moment.opening {} a.system.engine.archive 10).playWhole Archive.orders
        returning).any fun m =>
          decide ((m.system.engine.archive.readAll Archive.orders none none false).toOption.map
            (·.map (·.type)) = some ["placed", "paid", "returned", "closed"]) &&
          (!(a.log ++ m.log).foldl (Log.doubt Archive.orders) false &&
            decide (Log.Unexhausted Archive.orders (a.log ++ m.log)))) = true := by
    decide +kernel
  obtain ⟨a, hfirst, hthen⟩ := (Option.any_eq_true _ _).mp hplayed
  obtain ⟨m, hagain, hm⟩ := (Option.any_eq_true _ _).mp hthen
  simp only [Bool.and_eq_true, decide_eq_true_iff, Bool.not_eq_true'] at hm
  obtain ⟨hstored, hintact, hless⟩ := hm
  have hreached : Reached Archive.orders ([] ++ a.log) m :=
    (((Reached.opening Archive.vacant_blank {} 100).playWhole hfirst).restart {} 10).playWhole
      hagain
  exact ⟨a.log, m, hreached, hstored, hintact, hless,
    ascends_of_reached hreached hintact hless⟩

/-- The disk refuses to remove the headers file of a stream whose data file it removes.  The clock
goes back, and another event is appended and written. -/
def relapsing : List Move :=
  removingInVain { headers := some Archive.barred } ++
    [.tick 50, .start (.append ⟨Archive.orders, [⟨"placed", [2]⟩], none⟩ .start) false] ++
    List.replicate 17 (.step 3 {}) ++ List.replicate 6 (.step 0 {})

/-- The header that was not removed comes back before the event that is written next. -/
theorem not_ascends_of_relapsing :
    ∃ m stored, Reached Archive.orders [] m ∧ Log.Unexhausted Archive.orders m.log ∧
      m.system.engine.archive.readAll Archive.orders none none false = .ok stored ∧
      stored.map (·.id) = [⟨100, 0⟩, ⟨50, 0⟩] ∧ ¬Event.Ascending stored := by
  have hplayed : ((Moment.opening {} Archive.blank 100).playWhole Archive.orders relapsing).any
      (fun m => decide (Log.Unexhausted Archive.orders m.log) &&
        match m.system.engine.archive.readAll Archive.orders none none false with
        | .ok stored =>
          stored.map (·.id) == [⟨100, 0⟩, ⟨50, 0⟩] && !decide (Event.Ascending stored)
        | .error _ => false) = true := by
    decide +kernel
  obtain ⟨m, hrun, hm⟩ := (Option.any_eq_true _ _).mp hplayed
  obtain ⟨hless, hread⟩ := Bool.and_eq_true_iff.mp hm
  split at hread
  next stored hstored =>
    obtain ⟨hids, hunordered⟩ := Bool.and_eq_true_iff.mp hread
    exact ⟨m, stored, (Reached.opening Archive.vacant_blank {} 100).playWhole hrun,
      of_decide_eq_true hless, hstored, eq_of_beq hids,
      of_decide_eq_false ((Bool.not_eq_true' _).mp hunordered)⟩
  · cases hread

end Moment

end StreamStore
