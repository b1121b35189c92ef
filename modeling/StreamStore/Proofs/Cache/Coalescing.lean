import StreamStore.Proofs.Cache.PoolOrder

/-!
# Coalesced fetches

Tasks that miss the same key wait in its line, and whoever gets to the front looks the key up again.
So a value is found by one of them at a time and only while the key is absent; the next one finds
for itself where nothing was found, and all that were waiting get the value where one was found and
stays.
-/

namespace StreamStore.PoolSystem

variable {κ ν ε : Type} [DecidableEq κ] {y z x : PoolSystem κ ν ε} {mv : PoolMove κ ν ε}
  {moves more : List (PoolMove κ ν ε)} {k : κ} {t u : Nat} {v : ν}

/-! ## What others see of a move -/

/-- What a move notes: an end by who was at its end, and the beginning of a search by whose turn it
was while the key was absent. -/
theorem Moved.notices (h : y.Moved z mv) : ∃ noted, z.notices = y.notices ++ noted ∧
    (∀ t result, .finished t result ∈ noted → ∃ k, y.InPhase k (.done result) t) ∧
    ∀ t, .finding t ∈ noted → ∃ k, y.InPhase k .inLine t ∧ y.pool.cache.peek k = none := by
  cases h with
  | @step t k work noted left hwork hsteps hstage hnotices hnext =>
      refine ⟨noted, hnotices, fun t' result hmem => ?_, fun t' hmem => ?_⟩
      · generalize z.pool = pool at hsteps
        cases hsteps with
        | finish =>
            cases List.mem_singleton.mp hmem
            exact ⟨k, _, hwork⟩
        | turnMiss | turnHold => cases List.mem_singleton.mp hmem
        | found =>
            obtain ⟨row, -, heq⟩ := List.mem_map.mp hmem
            cases heq
        | _ => cases hmem
      · generalize z.pool = pool at hsteps
        cases hsteps with
        | turnMiss hturn habsent =>
            cases List.mem_singleton.mp hmem
            exact ⟨k, ⟨_, hwork⟩, habsent⟩
        | finish | turnHold => cases List.mem_singleton.mp hmem
        | found =>
            obtain ⟨row, -, heq⟩ := List.mem_map.mp hmem
            cases heq
        | _ => cases hmem
  | start hstart hstage hpool hnotices hnext => exact ⟨[], by simp [hnotices], nofun, nofun⟩
  | resolve hstage hpool hnotices hnext => exact ⟨[], by simp [hnotices], nofun, nofun⟩
  | abandon hstage hpool hnotices hnext => exact ⟨[], by simp [hnotices], nofun, nofun⟩
  | act hwrites hstage hpool hnotices hnext => exact ⟨[], by simp [hnotices], nofun, nofun⟩

/-! ## Where a value comes from -/

/-- The next step of a fetch settles for a value: it is held when the fetch looks first or when its
turn comes, or the fetch found it. -/
inductive Decides (y : PoolSystem κ ν ε) (t : Nat) (v : ν) : Prop
  | looked {k : κ} (hphase : y.InPhase k .looking t) (hheld : y.pool.cache.peek k = some v)
  | turned {k : κ} (hphase : y.InPhase k .inLine t) (hheld : y.pool.cache.peek k = some v)
  | found {k : κ} (hwork : y.stage t = some (k, .fetch .finding (some (.ok v))))

/-- With one of some moves a fetch settled for a value. -/
def DecidedIn (y : PoolSystem κ ν ε) (moves : List (PoolMove κ ν ε)) (t : Nat) (v : ν) : Prop :=
  ∃ before after a, moves = before ++ .step t :: after ∧ y.play before = some a ∧ a.Decides t v

theorem DecidedIn.append (h : y.DecidedIn moves t v) (more : List (PoolMove κ ν ε)) :
    y.DecidedIn (moves ++ more) t v := by
  obtain ⟨before, after, a, rfl, hplay, hdecides⟩ := h
  exact ⟨before, after ++ more, a, by simp, hplay, hdecides⟩

theorem DecidedIn.of_last (hplay : y.play moves = some z) (h : z.Decides t v) :
    y.DecidedIn (moves ++ [.step t]) t v :=
  ⟨moves, [], z, rfl, hplay, h⟩

/-- A fetch that goes by a value has it. -/
def HasValue (y : PoolSystem κ ν ε) (k : κ) (v : ν) (t : Nat) : Prop :=
  y.InPhase k (.leaving (.ok v)) t ∨ y.InPhase k (.done (.ok v)) t

/-- A fetch missed the key and waits for its turn. -/
def IsWaiting (y : PoolSystem κ ν ε) (k : κ) (t : Nat) : Prop :=
  y.InPhase k .missed t ∨ y.InPhase k .inLine t

/-- The key stays resident as long as some of those still wait that waited for it at the start. -/
def Keeps (y : PoolSystem κ ν ε) (k : κ) (moves : List (PoolMove κ ν ε)) : Prop :=
  ∀ before after a, moves = before ++ after → y.play before = some a →
    (∃ u, y.IsWaiting k u ∧ a.IsWaiting k u) → a.pool.cache.peek k ≠ none

/-- How far a fetch has come that waited for a key when a value was found for it. -/
inductive Outcome (more : List (PoolMove κ ν ε)) (noted : List (PoolNotice κ ν ε))
    (x : PoolSystem κ ν ε) (k : κ) (v : ν) (u : Nat) : Prop
  | waits (hwaiting : x.IsWaiting k u)
  | has (hvalue : x.HasValue k v u)
  | returned (hgone : x.stage u = none) (hmem : .finished u (.ok v) ∈ noted)
  | dropped (hgone : x.stage u = none) (hmem : .abandon u ∈ more)

/-- A fetch that waited for a key is served with the value that was found for it, and does not find
another one. -/
structure IsServed (more : List (PoolMove κ ν ε)) (noted : List (PoolNotice κ ν ε))
    (x : PoolSystem κ ν ε) (k : κ) (v : ν) (u : Nat) : Prop where
  outcome : Outcome more noted x k v u
  finished_eq : ∀ result, .finished u result ∈ noted → result = .ok v
  finding_notMem : .finding u ∉ noted

namespace Outcome

variable {noted : List (PoolNotice κ ν ε)}

omit [DecidableEq κ] in
/-- Whoever is in some phase waits for the key or has the value. -/
theorem of_inPhase (h : Outcome more noted x k v u) {k' : κ} {phase : Fetch ν ε}
    (hphase : x.InPhase k' phase u) :
    k' = k ∧ (phase = .missed ∨ phase = .inLine ∨ phase = .leaving (.ok v) ∨
      phase = .done (.ok v)) := by
  cases h with
  | waits hwaiting =>
      rcases hwaiting with hmissed | hline
      · obtain ⟨rfl, rfl⟩ := hphase.eq hmissed
        exact ⟨rfl, .inl rfl⟩
      · obtain ⟨rfl, rfl⟩ := hphase.eq hline
        exact ⟨rfl, .inr (.inl rfl)⟩
  | has hvalue =>
      rcases hvalue with hleaving | hdone
      · obtain ⟨rfl, rfl⟩ := hphase.eq hleaving
        exact ⟨rfl, .inr (.inr (.inl rfl))⟩
      · obtain ⟨rfl, rfl⟩ := hphase.eq hdone
        exact ⟨rfl, .inr (.inr (.inr rfl))⟩
  | returned hgone | dropped hgone => exact absurd hgone hphase.ne_none

/-- Every move takes a fetch on its way to the value, as long as that is there for it. -/
theorem moved (h : Outcome more noted y k v u) (hmoved : y.Moved z mv)
    (hfresh : y.stage y.nextTask = none) (hlt : u < y.nextTask)
    (hheld : y.IsWaiting k u → y.pool.cache.peek k = some v) {noted' : List (PoolNotice κ ν ε)}
    (hnoted : z.notices = y.notices ++ noted') :
    Outcome (more ++ [mv]) (noted ++ noted') z k v u := by
  have hgone : y.stage u = none → z.stage u = none := fun hnone =>
    (hmoved.stage_eq_none hnone).resolve_right fun h => Nat.ne_of_lt hlt h.1
  cases h with
  | waits hwaiting =>
      have hheld := hheld hwaiting
      rcases hwaiting with hmissed | hline
      · rcases hmoved.inPhase_after hfresh hmissed with
          hstays | ⟨rfl, hgone⟩ | ⟨find?, _, left, rfl, hsteps, hstage, -⟩
        · exact .waits (.inl hstays)
        · exact .dropped hgone (List.mem_append_right _ List.mem_cons_self)
        · generalize z.pool = pool at hsteps
          cases hsteps with
          | join => exact .waits (.inr ⟨_, hstage⟩)
      · rcases hmoved.inPhase_after hfresh hline with
          hstays | ⟨rfl, hgone⟩ | ⟨find?, _, left, rfl, hsteps, hstage, -⟩
        · exact .waits (.inr hstays)
        · exact .dropped hgone (List.mem_append_right _ List.mem_cons_self)
        · generalize z.pool = pool at hsteps
          cases hsteps with
          | turnHit hturn hfound =>
              cases hheld.symm.trans hfound
              exact .has (.inl ⟨_, hstage⟩)
          | turnMiss hturn habsent => cases hheld.symm.trans habsent
  | has hvalue =>
      rcases hvalue with hleaving | hdone
      · rcases hmoved.inPhase_after hfresh hleaving with
          hstays | ⟨rfl, hgone⟩ | ⟨find?, _, left, rfl, hsteps, hstage, -⟩
        · exact .has (.inl hstays)
        · exact .dropped hgone (List.mem_append_right _ List.mem_cons_self)
        · generalize z.pool = pool at hsteps
          cases hsteps with
          | leave => exact .has (.inr ⟨_, hstage⟩)
      · rcases hmoved.inPhase_after hfresh hdone with
          hstays | ⟨rfl, hgone⟩ | ⟨find?, ends, left, rfl, hsteps, hstage, hends⟩
        · exact .has (.inr hstays)
        · exact .dropped hgone (List.mem_append_right _ List.mem_cons_self)
        · cases List.append_cancel_left (hnoted.symm.trans hends)
          generalize z.pool = pool at hsteps
          cases hsteps with
          | finish => exact .returned hstage (List.mem_append_right _ List.mem_cons_self)
  | returned hnone hmem => exact .returned (hgone hnone) (List.mem_append_left _ hmem)
  | dropped hnone hmem => exact .dropped (hgone hnone) (List.mem_append_left _ hmem)

end Outcome

/-- A move serves a fetch, as long as the value is there for it. -/
theorem IsServed.moved {noted noted' : List (PoolNotice κ ν ε)} (h : IsServed more noted y k v u)
    (hmoved : y.Moved z mv) (hfresh : y.stage y.nextTask = none) (hlt : u < y.nextTask)
    (hheld : y.IsWaiting k u → y.pool.cache.peek k = some v)
    (hnoted : z.notices = y.notices ++ noted') :
    IsServed (more ++ [mv]) (noted ++ noted') z k v u := by
  obtain ⟨_, hnotices, hends, hfinds⟩ := hmoved.notices
  cases List.append_cancel_left (hnoted.symm.trans hnotices)
  refine ⟨h.outcome.moved hmoved hfresh hlt hheld hnoted, fun result hmem => ?_, fun hmem => ?_⟩
  · rcases List.mem_append.mp hmem with hold | hnew
    · exact h.finished_eq result hold
    · obtain ⟨k', hdone⟩ := hends u result hnew
      obtain ⟨-, hphase | hphase | hphase | hphase⟩ := h.outcome.of_inPhase hdone <;> cases hphase
      rfl
  · rcases List.mem_append.mp hmem with hold | hnew
    · exact h.finding_notMem hold
    · obtain ⟨k', hline, habsent⟩ := hfinds u hnew
      obtain ⟨rfl, -⟩ := h.outcome.of_inPhase hline
      cases (hheld (.inr hline)).symm.trans habsent

theorem Keeps.of_append (h : y.Keeps k (moves ++ more)) : y.Keeps k moves := by
  rintro before after a rfl
  exact h before (after ++ more) a (List.append_assoc ..)

theorem InOrder.nextTask_le (h : z.InOrder) (hrun : z.play more = some x) :
    z.nextTask ≤ x.nextTask :=
  foldlM_induction (P := fun x => z.nextTask ≤ x.nextTask) hrun Nat.le.refl
    fun _ _ _ _ hbefore hle hmove =>
      hle.trans ((h.play hbefore).moved_of_move hmove).nextTask_le

namespace InOrder

end InOrder

end StreamStore.PoolSystem
