import Mathlib.Data.List.Nodup
import StreamStore.Cache.Slab

/-!
# The thread through a slab

The links of a slab thread its entries from the most to the least recently used
one.  A stretch of the thread is linked to what comes before it and to what comes
behind it, and two stretches in a row are linked to each other.  So taking an
entry out of the thread or putting one in front of it changes the links at the
ends of stretches alone.
-/

namespace StreamStore.Slab

variable {κ ν : Type}

/-! ## Stretches of the thread -/

/-- The entries at some places are linked in this order, the first one to what
comes before them and the last one to what comes behind them. -/
def Linked (nodes : Array (SlabNode κ ν)) : Option Nat → List Nat → Option Nat → Prop
  | _, [], _ => True
  | before, place :: rest, behind =>
    (∃ node, nodes[place]? = some node ∧ node.newer = before ∧
        node.older = rest.head?.or behind) ∧
      Linked nodes (some place) rest behind

theorem linked_append (nodes : Array (SlabNode κ ν)) (before behind : Option Nat)
    (xs ys : List Nat) :
    Linked nodes before (xs ++ ys) behind ↔
      Linked nodes before xs (ys.head?.or behind) ∧
        Linked nodes (xs.getLast?.or before) ys behind := by
  induction xs generalizing before with
  | nil => simp [Linked]
  | cons x xs ih =>
      have hlast : (x :: xs).getLast?.or before = xs.getLast?.or (some x) := by
        rw [List.getLast?_cons]
        cases xs.getLast? with
        | none => rfl
        | some last => rfl
      rw [List.cons_append, Linked, Linked, ih, List.head?_append, Option.or_assoc, hlast,
        and_assoc]

/-- A stretch depends on the links of its own entries alone. -/
theorem Linked.of_links {nodes nodes' : Array (SlabNode κ ν)} {before behind : Option Nat}
    {xs : List Nat} (h : Linked nodes before xs behind)
    (hsame : ∀ i ∈ xs, ∀ node, nodes[i]? = some node → ∃ node', nodes'[i]? = some node' ∧
      node'.newer = node.newer ∧ node'.older = node.older) :
    Linked nodes' before xs behind := by
  induction xs generalizing before with
  | nil => exact trivial
  | cons x xs ih =>
      obtain ⟨⟨node, hnode, hnewer, holder⟩, hrest⟩ := h
      obtain ⟨node', hnode', hnewer', holder'⟩ := hsame x List.mem_cons_self node hnode
      exact ⟨⟨node', hnode', hnewer'.trans hnewer, holder'.trans holder⟩,
        ih hrest fun i hi => hsame i (List.mem_cons_of_mem x hi)⟩

theorem Linked.congr {nodes nodes' : Array (SlabNode κ ν)} {before behind : Option Nat}
    {xs : List Nat} (h : Linked nodes before xs behind)
    (hsame : ∀ i ∈ xs, nodes'[i]? = nodes[i]?) : Linked nodes' before xs behind :=
  h.of_links fun i hi node hnode => ⟨node, (hsame i hi).trans hnode, rfl, rfl⟩

theorem Linked.exists_node {nodes : Array (SlabNode κ ν)} {before behind : Option Nat}
    {xs : List Nat} (h : Linked nodes before xs behind) {i : Nat} (hi : i ∈ xs) :
    ∃ node, nodes[i]? = some node := by
  induction xs generalizing before with
  | nil => cases hi
  | cons x xs ih =>
      obtain ⟨⟨node, hnode, -⟩, hrest⟩ := h
      rcases List.mem_cons.mp hi with rfl | hi
      · exact ⟨node, hnode⟩
      · exact ih hrest hi

/-! ## Changes of links -/

/-- The entry at a place, without its links. -/
def entryAt? (s : Slab κ ν) (place : Nat) : Option (κ × ν) :=
  s.nodes[place]?.map fun node => (node.key, node.value)

theorem entryAt?_eq_some {s : Slab κ ν} {i : Nat} {row : κ × ν}
    (h : s.entryAt? i = some row) :
    ∃ node, s.nodes[i]? = some node ∧ node.key = row.1 ∧ node.value = row.2 := by
  obtain ⟨node, hnode, rfl⟩ := Option.map_eq_some_iff.mp h
  exact ⟨node, hnode, rfl, rfl⟩

/-- Two slabs have the same entries at the same places, whatever their links. -/
structure SameEntries (s s' : Slab κ ν) : Prop where
  index_eq : s'.index = s.index
  size_eq : s'.nodes.size = s.nodes.size
  entryAt?_eq : ∀ i, s'.entryAt? i = s.entryAt? i

theorem SameEntries.refl (s : Slab κ ν) : SameEntries s s :=
  ⟨rfl, rfl, fun _ => rfl⟩

theorem SameEntries.trans {s s' s'' : Slab κ ν} (h : SameEntries s s')
    (h' : SameEntries s' s'') : SameEntries s s'' where
  index_eq := h'.index_eq.trans h.index_eq
  size_eq := h'.size_eq.trans h.size_eq
  entryAt?_eq i := (h'.entryAt?_eq i).trans (h.entryAt?_eq i)

/-- Changing the links of an entry changes nothing else. -/
theorem change?_links {s : Slab κ ν} {place : Nat} {node : SlabNode κ ν}
    (hnode : s.nodes[place]? = some node) (f : SlabNode κ ν → SlabNode κ ν)
    (hkey : (f node).key = node.key) (hvalue : (f node).value = node.value) :
    ∃ s', s.change? place f = some s' ∧ SameEntries s s' ∧
      s'.nodes[place]? = some (f node) ∧ (∀ i, i ≠ place → s'.nodes[i]? = s.nodes[i]?) ∧
      s'.newest = s.newest ∧ s'.oldest = s.oldest := by
  obtain ⟨hlt, -⟩ := Array.getElem?_eq_some_iff.mp hnode
  have hself : (s.nodes.set! place (f node))[place]? = some (f node) := by
    rw [Array.set!_eq_setIfInBounds, Array.getElem?_setIfInBounds_self_of_lt hlt]
  have hother : ∀ i, i ≠ place → (s.nodes.set! place (f node))[i]? = s.nodes[i]? := by
    intro i hi
    rw [Array.set!_eq_setIfInBounds, Array.getElem?_setIfInBounds_ne hi.symm]
  refine ⟨{ s with nodes := s.nodes.set! place (f node) }, ?_, ⟨rfl, ?_, ?_⟩, hself,
    hother, rfl, rfl⟩
  · rw [change?, hnode]
  · rw [Array.set!_eq_setIfInBounds, Array.size_setIfInBounds]
  · intro i
    by_cases hi : i = place
    · subst hi
      rw [entryAt?, entryAt?, hself, hnode, Option.map_some, Option.map_some, hkey, hvalue]
    · rw [entryAt?, entryAt?, hother i hi]

/-- The end of a stretch from the newest entry on can be linked to another place
behind it. -/
theorem linkNewer?_stretch {s : Slab κ ν} {xs : List Nat} {behind : Option Nat}
    (hnodup : xs.Nodup) (hlinked : Linked s.nodes none xs behind)
    (hnewest : s.newest = xs.head?.or behind) (target : Option Nat) :
    ∃ s', s.linkNewer? xs.getLast? target = some s' ∧ SameEntries s s' ∧
      Linked s'.nodes none xs target ∧ (∀ i, i ∉ xs → s'.nodes[i]? = s.nodes[i]?) ∧
      s'.newest = xs.head?.or target ∧ s'.oldest = s.oldest := by
  rcases List.eq_nil_or_concat xs with rfl | ⟨init, last, rfl⟩
  · exact ⟨{ s with newest := target }, rfl, ⟨rfl, rfl, fun _ => rfl⟩, trivial,
      fun _ _ => rfl, rfl, rfl⟩
  · rw [List.concat_eq_append] at *
    obtain ⟨hinit, ⟨node, hnode, hnewer, holder⟩, -⟩ := (linked_append ..).mp hlinked
    obtain ⟨s', hchange, hsame, hself, hother, hnewest', holdest'⟩ :=
      change?_links hnode (fun node => { node with older := target }) rfl rfl
    have hlast : last ∉ init := by
      intro hmem
      exact (List.nodup_append.mp hnodup).2.2 last hmem last List.mem_cons_self rfl
    refine ⟨s', ?_, hsame, (linked_append ..).mpr ⟨?_, ⟨_, hself, hnewer, rfl⟩, trivial⟩,
      fun i hi => ?_, ?_, holdest'⟩
    · rw [List.getLast?_concat]
      exact hchange
    · refine hinit.congr fun i hi => hother i ?_
      rintro rfl
      exact hlast hi
    · apply hother
      rintro rfl
      exact hi (List.mem_append_right init List.mem_cons_self)
    · rw [hnewest', hnewest, List.head?_append, Option.or_assoc, Option.or_assoc]
      rfl

/-- The front of a stretch up to the oldest entry can be linked to another place
before it. -/
theorem linkOlder?_stretch {s : Slab κ ν} {ys : List Nat} {before : Option Nat}
    (hnodup : ys.Nodup) (hlinked : Linked s.nodes before ys none)
    (holdest : s.oldest = ys.getLast?.or before) (target : Option Nat) :
    ∃ s', s.linkOlder? ys.head? target = some s' ∧ SameEntries s s' ∧
      Linked s'.nodes target ys none ∧ (∀ i, i ∉ ys → s'.nodes[i]? = s.nodes[i]?) ∧
      s'.newest = s.newest ∧ s'.oldest = ys.getLast?.or target := by
  cases ys with
  | nil =>
      exact ⟨{ s with oldest := target }, rfl, ⟨rfl, rfl, fun _ => rfl⟩, trivial,
        fun _ _ => rfl, rfl, rfl⟩
  | cons first ys =>
      obtain ⟨⟨node, hnode, hnewer, holder⟩, hrest⟩ := hlinked
      obtain ⟨s', hchange, hsame, hself, hother, hnewest', holdest'⟩ :=
        change?_links hnode (fun node => { node with newer := target }) rfl rfl
      have hfirst : first ∉ ys := (List.nodup_cons.mp hnodup).1
      refine ⟨s', hchange, hsame, ⟨⟨_, hself, rfl, holder⟩, ?_⟩, fun i hi => ?_,
        hnewest', ?_⟩
      · refine hrest.congr fun i hi => hother i ?_
        rintro rfl
        exact hfirst hi
      · apply hother
        rintro rfl
        exact hi List.mem_cons_self
      · rw [holdest', holdest, List.getLast?_cons]
        rfl

/-! ## The whole thread -/

/-- The links thread the entries at some places, from the most to the least
recently used one. -/
structure Threaded (s : Slab κ ν) (places : List Nat) : Prop where
  nodup : places.Nodup
  linked : Linked s.nodes none places none
  newest_eq : s.newest = places.head?
  oldest_eq : s.oldest = places.getLast?

theorem threaded_empty : Threaded ({} : Slab κ ν) [] :=
  ⟨List.nodup_nil, trivial, rfl, rfl⟩

variable {s : Slab κ ν} {p : Nat} {xs ys places : List Nat}

theorem Threaded.exists_node (h : s.Threaded places) {i : Nat} (hi : i ∈ places) :
    ∃ node, s.nodes[i]? = some node :=
  h.linked.exists_node hi

/-- Taking an entry out of the thread links its neighbours to each other. -/
theorem Threaded.detach? (h : s.Threaded (xs ++ p :: ys)) :
    ∃ s', s.detach? p = some s' ∧ SameEntries s s' ∧ s'.Threaded (xs ++ ys) := by
  obtain ⟨hxs, hpys, hdisjoint⟩ := List.nodup_append.mp h.nodup
  obtain ⟨hp, hys⟩ := List.nodup_cons.mp hpys
  have hpxs : p ∉ xs := fun hmem => hdisjoint p hmem p List.mem_cons_self rfl
  have hnodup : (xs ++ ys).Nodup := List.nodup_append.mpr
    ⟨hxs, hys, fun a ha b hb => hdisjoint a ha b (List.mem_cons_of_mem p hb)⟩
  obtain ⟨hlinked, ⟨node, hnode, hnewer, holder⟩, hbehind⟩ :=
    (linked_append ..).mp h.linked
  rw [Option.or_none] at hnewer holder
  have hnewest := h.newest_eq
  rw [List.head?_append] at hnewest
  have holdest : s.oldest = ys.getLast?.or (some p) := by
    rw [h.oldest_eq, List.getLast?_append, List.getLast?_cons]
    cases ys.getLast? with
    | none => rfl
    | some last => rfl
  rw [Option.or_none] at hlinked
  obtain ⟨s₁, hlink₁, hsame₁, hlinked₁, hframe₁, hnewest₁, holdest₁⟩ :=
    linkNewer?_stretch hxs hlinked hnewest ys.head?
  have hbehind₁ : Linked s₁.nodes (some p) ys none :=
    hbehind.congr fun i hi =>
      hframe₁ i fun hmem => hdisjoint i hmem i (List.mem_cons_of_mem p hi) rfl
  obtain ⟨s₂, hlink₂, hsame₂, hlinked₂, hframe₂, hnewest₂, holdest₂⟩ :=
    linkOlder?_stretch hys hbehind₁ (holdest₁.trans holdest) xs.getLast?
  have hnode₂ : s₂.nodes[p]? = some node := by
    rw [hframe₂ p hp, hframe₁ p hpxs, hnode]
  obtain ⟨s₃, hchange, hsame₃, -, hframe₃, hnewest₃, holdest₃⟩ :=
    change?_links hnode₂ (fun node => { node with newer := none, older := none }) rfl rfl
  have hlinked₂' : Linked s₂.nodes none xs ys.head? :=
    hlinked₁.congr fun i hi =>
      hframe₂ i fun hmem => hdisjoint i hi i (List.mem_cons_of_mem p hmem) rfl
  refine ⟨s₃, ?_, (hsame₁.trans hsame₂).trans hsame₃, hnodup, ?_, ?_, ?_⟩
  · simp only [Slab.detach?, hnode, hnewer, holder, hlink₁, hlink₂, hchange,
      Option.bind_eq_bind, Option.bind_some]
  · refine (linked_append ..).mpr ⟨?_, ?_⟩
    · rw [Option.or_none]
      refine hlinked₂'.congr fun i hi => hframe₃ i ?_
      rintro rfl
      exact hpxs hi
    · rw [Option.or_none]
      refine hlinked₂.congr fun i hi => hframe₃ i ?_
      rintro rfl
      exact hp hi
  · rw [hnewest₃, hnewest₂, hnewest₁, List.head?_append]
  · rw [holdest₃, holdest₂, List.getLast?_append]

/-- An entry outside the thread can be put in front of it. -/
theorem Threaded.pushFront? (h : s.Threaded places) (hp : p ∉ places)
    (hlt : p < s.nodes.size) :
    ∃ s', s.pushFront? p = some s' ∧ SameEntries s s' ∧ s'.Threaded (p :: places) := by
  obtain ⟨s₁, hchange₁, hsame₁, hself₁, hframe₁, hnewest₁, holdest₁⟩ :=
    change?_links (Array.getElem?_eq_getElem hlt)
      (fun node => { node with newer := none, older := s.newest }) rfl rfl
  have hlinked₁ : Linked s₁.nodes none places none := by
    refine h.linked.congr fun i hi => hframe₁ i ?_
    rintro rfl
    exact hp hi
  have hnodup : (p :: places).Nodup := List.nodup_cons.mpr ⟨hp, h.nodup⟩
  cases places with
  | nil =>
      have hnone : s.newest = none := h.newest_eq
      refine ⟨{ s₁ with newest := some p, oldest := s₁.oldest.or (some p) }, ?_,
        ⟨hsame₁.index_eq, hsame₁.size_eq, hsame₁.entryAt?_eq⟩, hnodup, ?_, rfl, ?_⟩
      · simp only [Slab.pushFront?, hchange₁, hnewest₁.trans hnone, Option.bind_eq_bind,
          Option.bind_some]
        rfl
      · exact ⟨⟨_, hself₁, rfl, hnone⟩, trivial⟩
      · rw [holdest₁, h.oldest_eq]
        rfl
  | cons front rest =>
      have hfront : s.newest = some front := h.newest_eq
      obtain ⟨⟨node, hnode, hnewer, holder⟩, hrest⟩ := hlinked₁
      obtain ⟨s₂, hchange₂, hsame₂, hself₂, hframe₂, hnewest₂, holdest₂⟩ :=
        change?_links hnode (fun node => { node with newer := some p }) rfl rfl
      have hne : p ≠ front := fun heq => hp (heq ▸ List.mem_cons_self)
      refine ⟨{ s₂ with newest := some p, oldest := s₂.oldest.or (some p) }, ?_,
        ⟨hsame₂.index_eq.trans hsame₁.index_eq, hsame₂.size_eq.trans hsame₁.size_eq,
          (hsame₁.trans hsame₂).entryAt?_eq⟩, hnodup, ?_, rfl, ?_⟩
      · simp only [Slab.pushFront?, hchange₁, hnewest₁.trans hfront, hchange₂,
          Option.bind_eq_bind, Option.bind_some]
        rfl
      · refine ⟨⟨_, (hframe₂ p hne).trans hself₁, rfl, hfront⟩,
          ⟨_, hself₂, rfl, holder⟩, ?_⟩
        refine hrest.congr fun i hi => hframe₂ i ?_
        rintro rfl
        exact (List.nodup_cons.mp h.nodup).1 hi
      · rw [holdest₂, holdest₁, h.oldest_eq, List.getLast?_cons_cons, List.getLast?_cons]
        rfl

/-- Any entry of the thread can be moved to its front. -/
theorem Threaded.promote? (h : s.Threaded (xs ++ p :: ys)) (hlt : p < s.nodes.size) :
    ∃ s', s.promote? p = some s' ∧ SameEntries s s' ∧
      s'.Threaded (p :: (xs ++ ys)) := by
  by_cases hfront : s.newest = some p
  · have hxs : xs = [] := by
      cases xs with
      | nil => rfl
      | cons x xs =>
          have hx : x = p := by
            have hhead := h.newest_eq
            rw [hfront] at hhead
            exact (Option.some.inj hhead).symm
          exact ((List.nodup_cons.mp h.nodup).1
            (hx ▸ List.mem_append_right xs List.mem_cons_self)).elim
    subst hxs
    exact ⟨s, if_pos hfront, SameEntries.refl s, h⟩
  · obtain ⟨s₁, hdetach, hsame₁, hthreaded₁⟩ := h.detach?
    have hp : p ∉ xs ++ ys := by
      have hnodup := List.nodup_middle.mp h.nodup
      exact (List.nodup_cons.mp hnodup).1
    obtain ⟨s₂, hpush, hsame₂, hthreaded₂⟩ :=
      hthreaded₁.pushFront? hp (by rw [hsame₁.size_eq]; exact hlt)
    refine ⟨s₂, ?_, hsame₁.trans hsame₂, hthreaded₂⟩
    rw [Slab.promote?, if_neg hfront, hdetach, Option.bind_some, hpush]

/-! ## Filling a gap -/

theorem size_swapOut (nodes : Array (SlabNode κ ν)) {p : Nat} (hp : p < nodes.size) :
    (swapOut nodes p).size = nodes.size - 1 := by
  have hlast : nodes[nodes.size - 1]? = some nodes[nodes.size - 1] :=
    Array.getElem?_eq_getElem (by omega)
  rw [swapOut, Array.back?_eq_getElem?, hlast]
  simp only [Array.size_pop, Array.set!_eq_setIfInBounds, Array.size_setIfInBounds]

/-- The last entry of the array takes the place of the one that goes. -/
theorem getElem?_swapOut (nodes : Array (SlabNode κ ν)) {p : Nat} (hp : p < nodes.size)
    (i : Nat) :
    (swapOut nodes p)[i]? =
      if i < nodes.size - 1 then
        (if i = p then nodes[nodes.size - 1]? else nodes[i]?)
      else none := by
  have hlast : nodes[nodes.size - 1]? = some nodes[nodes.size - 1] :=
    Array.getElem?_eq_getElem (by omega)
  rw [swapOut, Array.back?_eq_getElem?, hlast]
  simp only [Array.getElem?_pop, Array.set!_eq_setIfInBounds, Array.size_setIfInBounds,
    Array.getElem?_setIfInBounds]
  by_cases hi : i < nodes.size - 1
  · rw [if_pos hi, if_pos hi]
    by_cases hip : i = p
    · rw [if_pos hip.symm, if_pos hip, if_pos hp]
    · rw [if_neg (Ne.symm hip), if_neg hip]
  · rw [if_neg hi, if_neg hi]

end StreamStore.Slab
