import Mathlib.Data.List.Pairwise
import Mathlib.Data.Nat.Notation
import Mathlib.Data.String.Basic
import StreamStore.Stream.Id

/-!
# The two orders of stream identities

Identities are ordered by key and then by type, catalogues by type and then by key.
Both are linear, so a sorted list is determined by its members.  A list in the order
of identities is also in catalogue order exactly where the keys of streams follow
their types.
-/

namespace StreamStore

/-! ## Sorted lists -/

section Sorting

variable {α : Type} {cmp : α → α → Ordering} {xs ys : List α}

theorem nodup_eraseDups [DecidableEq α] (xs : List α) : xs.eraseDups.Nodup := by
  generalize hlength : xs.length = n
  induction n using Nat.strongRecOn generalizing xs with
  | ind n ih =>
      cases xs with
      | nil =>
          rw [List.eraseDups_nil]
          exact List.nodup_nil
      | cons x xs =>
          have hle := List.length_filter_le (fun y => !y == x) xs
          rw [List.length_cons] at hlength
          rw [List.eraseDups_cons]
          refine List.nodup_cons.mpr ⟨?_, ih _ (by omega) _ rfl⟩
          rw [List.mem_eraseDups, List.mem_filter]
          simp

/-- A list goes up in an order, with equals side by side. -/
def SortedBy (cmp : α → α → Ordering) (xs : List α) : Prop :=
  xs.Pairwise fun x y => (cmp x y).isLE

/-- Sorting by what a function gives makes that go up. -/
theorem sortedBy_map_mergeSort {β : Type} [Std.TransCmp cmp] (f : β → α) (xs : List β) :
    SortedBy cmp ((xs.mergeSort fun x y => (cmp (f x) (f y)).isLE).map f) := by
  refine List.pairwise_map.mpr (List.pairwise_mergeSort ?_ ?_ xs)
  · intro x y z
    exact Std.TransCmp.isLE_trans
  · intro x y
    have hswap : cmp (f y) (f x) = (cmp (f x) (f y)).swap := Std.OrientedCmp.eq_swap
    rw [hswap]
    cases cmp (f x) (f y) <;> rfl

theorem SortedBy.eq_of_perm [Std.TransCmp cmp] [Std.LawfulEqCmp cmp] (h : SortedBy cmp xs)
    (h' : SortedBy cmp ys) (hperm : xs.Perm ys) : xs = ys := by
  refine hperm.eq_of_pairwise ?_ h h'
  intro x y _ _ hle hge
  have heq : cmp x y = .eq := Std.OrientedCmp.isLE_antisymm hle hge
  exact Std.LawfulEqCmp.eq_of_compare heq

/-- Without equals, a list goes up strictly. -/
theorem SortedBy.strict [Std.LawfulEqCmp cmp] (h : SortedBy cmp xs)
    (hnodup : xs.Nodup) : xs.Pairwise fun x y => cmp x y = .lt := by
  refine (h.and hnodup).imp fun {x y} hxy => ?_
  obtain ⟨hle, hne⟩ := hxy
  cases hcmp : cmp x y with
  | lt => rfl
  | eq => exact absurd (Std.LawfulEqCmp.eq_of_compare hcmp) hne
  | gt =>
      rw [hcmp] at hle
      cases hle

/-- Of two members, the lesser one comes first. -/
theorem SortedBy.sublist_of_lt [Std.TransCmp cmp] (h : SortedBy cmp xs) {x y : α} (hx : x ∈ xs)
    (hy : y ∈ xs) (hlt : cmp x y = .lt) : [x, y].Sublist xs := by
  have hgt : cmp y x = .gt := Std.OrientedCmp.gt_of_lt hlt
  induction h with
  | nil => cases hx
  | @cons z zs hz _ ih =>
      rcases List.mem_cons.mp hx with rfl | hx'
      · rcases List.mem_cons.mp hy with rfl | hy'
        · exact absurd (hlt.symm.trans hgt) nofun
        · exact (List.singleton_sublist.mpr hy').cons_cons x
      · rcases List.mem_cons.mp hy with rfl | hy'
        · have hle := hz x hx'
          rw [hgt] at hle
          cases hle
        · exact (ih hx' hy').cons z

/-- Two lists go through the members that they share in one order. -/
def SameOrder (xs ys : List α) : Prop :=
  ∀ x y, x ≠ y → [x, y].Sublist xs → ¬[y, x].Sublist ys

end Sorting

namespace StreamId

/-! ## By key, or by type -/

instance : Std.TransCmp compare :=
  inferInstanceAs (Std.TransCmp (compareLex (compareOn fun s : StreamId => s.key.toNat)
    (compareOn fun s => s.type.text)))

instance : Std.TransCmp compareInCatalogue :=
  inferInstanceAs (Std.TransCmp (compareLex (compareOn fun s : StreamId => s.type.text)
    (compareOn fun s => s.key.toNat)))

theorem eq_of_parts {a b : StreamId} (hkey : a.key.toNat = b.key.toNat)
    (htype : a.type.text = b.type.text) : a = b := by
  obtain ⟨key, ⟨text, valid⟩⟩ := a
  obtain ⟨key', ⟨text', valid'⟩⟩ := b
  have hkeys : key = key' := by
    rw [← Uuid.ofNat_toNat key, hkey, Uuid.ofNat_toNat]
  cases hkeys
  cases htype
  rfl

instance : Std.LawfulEqCmp compare where
  eq_of_compare h := by
    obtain ⟨hkey, htype⟩ := Ordering.then_eq_eq.mp h
    exact eq_of_parts (compare_eq_iff_eq.mp hkey) (compare_eq_iff_eq.mp htype)

instance : Std.LawfulEqCmp compareInCatalogue where
  eq_of_compare h := by
    obtain ⟨htype, hkey⟩ := Ordering.then_eq_eq.mp h
    exact eq_of_parts (compare_eq_iff_eq.mp hkey) (compare_eq_iff_eq.mp htype)

theorem isLE_compare_text {x y : String} : (Ord.compare x y).isLE ↔ x ≤ y := by
  rw [Ordering.isLE_iff_ne_gt]
  exact compare_le_iff_le

theorem isLE_compare_iff {a b : StreamId} : (a.compare b).isLE ↔
    a.key.toNat < b.key.toNat ∨ a.key.toNat = b.key.toNat ∧ a.type.text ≤ b.type.text := by
  rw [compare, Ordering.isLE_then_iff_or, compare_lt_iff_lt, compare_eq_iff_eq, isLE_compare_text]

theorem isLE_compareInCatalogue_iff {a b : StreamId} : (a.compareInCatalogue b).isLE ↔
    a.type.text < b.type.text ∨ a.type.text = b.type.text ∧ a.key.toNat ≤ b.key.toNat := by
  rw [compareInCatalogue, Ordering.isLE_then_iff_or, compare_lt_iff_lt, compare_eq_iff_eq,
    Std.isLE_compare]

/-- Streams of lesser types have lesser keys, or the same. -/
def KeysFollowTypes (p : StreamId → Prop) : Prop :=
  ∀ a b, p a → p b → a.type.text < b.type.text → a.key.toNat ≤ b.key.toNat

variable {a b : StreamId} {ss infos : List StreamId}

theorem lt_of_compare (hkey : a.key.toNat < b.key.toNat) : a.compare b = .lt := by
  rw [compare, compare_lt_iff_lt.mpr hkey]
  rfl

theorem lt_of_compareInCatalogue (htype : a.type.text < b.type.text) :
    a.compareInCatalogue b = .lt := by
  rw [compareInCatalogue, compare_lt_iff_lt.mpr htype]
  rfl

theorem KeysFollowTypes.isLE {p : StreamId → Prop} (h : KeysFollowTypes p) (ha : p a) (hb : p b)
    (hle : (a.compare b).isLE) : (a.compareInCatalogue b).isLE := by
  rw [isLE_compareInCatalogue_iff]
  rcases lt_trichotomy a.type.text b.type.text with htype | htype | htype
  · exact .inl htype
  · rcases isLE_compare_iff.mp hle with hkey | ⟨hkey, -⟩
    · exact .inr ⟨htype, hkey.le⟩
    · exact .inr ⟨htype, hkey.le⟩
  · have hkeys := h b a hb ha htype
    rcases isLE_compare_iff.mp hle with hkey | ⟨-, htypes⟩
    · exact absurd hkeys (Nat.not_le_of_lt hkey)
    · exact absurd htypes (not_le_of_gt htype)

/-- A list in the order of identities is in catalogue order exactly where keys follow
types. -/
theorem sortedBy_iff_keysFollowTypes (h : SortedBy compare ss) :
    SortedBy compareInCatalogue ss ↔ KeysFollowTypes (· ∈ ss) := by
  constructor
  · intro hcatalogue a b ha hb htype
    by_contra hkeys
    have hfirst := h.sublist_of_lt hb ha (lt_of_compare (Nat.lt_of_not_le hkeys))
    have hle := hcatalogue.forall_sublist hfirst
    rw [Std.OrientedCmp.gt_of_lt (lt_of_compareInCatalogue htype)] at hle
    cases hle
  · intro hkeys
    exact h.imp_of_mem fun ha hb hle => hkeys.isLE ha hb hle

/-- The streams that a list in the order of identities shares with one in catalogue
order come in one order exactly where their keys follow their types. -/
theorem sameOrder_iff_keysFollowTypes (h : SortedBy compare ss)
    (hinfos : SortedBy compareInCatalogue infos) :
    SameOrder ss infos ↔ KeysFollowTypes fun s => s ∈ ss ∧ s ∈ infos := by
  constructor
  · intro hsame a b ha hb htype
    by_contra hkeys
    refine hsame b a ?_ (h.sublist_of_lt hb.1 ha.1 (lt_of_compare (Nat.lt_of_not_le hkeys)))
      (hinfos.sublist_of_lt ha.2 hb.2 (lt_of_compareInCatalogue htype))
    rintro rfl
    exact lt_irrefl _ htype
  · intro hkeys a b hne hab hba
    have hle := hkeys.isLE ⟨hab.subset (by simp), hba.subset (by simp)⟩
      ⟨hab.subset (by simp), hba.subset (by simp)⟩ (h.forall_sublist hab)
    have hge := hinfos.forall_sublist hba
    exact hne (Std.LawfulEqCmp.eq_of_compare (Std.OrientedCmp.isLE_antisymm hle hge))

end StreamId

end StreamStore
