import Mathlib.Data.List.Nodup
import Mathlib.Data.List.TakeWhile
import Mathlib.Logic.Function.Basic
import StreamStore.Proofs.Table
import StreamStore.Sync.LockTable
import StreamStore.Sync.SharedLock

/-!
# Standing in line

A line is in order when only those stand in it who know that they do, none of them
twice, and whoever goes by being the first is the first.  Getting in line and leaving
it keep a line in order.  So those who hold an exclusive lock are one at a time, and
so is who holds a shared lock for writing.
-/

namespace StreamStore

/-- A line in which those stand who know of it, none of them twice, and in which
whoever leads comes first. -/
structure Attends {α : Type} (line : List α) (stands leads : α → Prop) : Prop where
  stands_of_mem : ∀ x ∈ line, stands x
  nodup : line.Nodup
  head_of_leads : ∀ x, leads x → line.head? = some x

namespace Attends

variable {α : Type} {line : List α} {stands stands' leads leads' : α → Prop}

theorem nil (hleads : ∀ x, ¬leads x) : Attends [] stands leads where
  stands_of_mem := fun _ hx => absurd hx List.not_mem_nil
  nodup := List.nodup_nil
  head_of_leads := fun x hx => absurd hx (hleads x)

/-- Only one can lead. -/
theorem eq_of_leads (h : Attends line stands leads) {x y : α} (hx : leads x)
    (hy : leads y) : x = y :=
  Option.some.inj ((h.head_of_leads x hx).symm.trans (h.head_of_leads y hy))

/-- Nobody comes or goes, and only who is the first may begin to lead. -/
theorem stay (h : Attends line stands leads) (hstands : ∀ x, stands x → stands' x)
    (hleads : ∀ x, leads' x → leads x ∨ line.head? = some x) :
    Attends line stands' leads' where
  stands_of_mem := fun x hx => hstands x (h.stands_of_mem x hx)
  nodup := h.nodup
  head_of_leads := fun x hx => (hleads x hx).elim (h.head_of_leads x) id

theorem join (h : Attends line stands leads) {x : α} (hnew : ¬stands x) (hself : stands' x)
    (hstands : ∀ y, stands y → stands' y) (hleads : ∀ y, leads' y → leads y) :
    Attends (line ++ [x]) stands' leads' where
  stands_of_mem := fun y hy => (List.mem_append.mp hy).elim
    (fun hy => hstands y (h.stands_of_mem y hy))
    (fun hy => List.mem_singleton.mp hy ▸ hself)
  nodup := by
    refine List.nodup_append.mpr ⟨h.nodup, List.nodup_singleton x, ?_⟩
    rintro y hy z hz rfl
    rw [List.mem_singleton.mp hz] at hy
    exact hnew (h.stands_of_mem x hy)
  head_of_leads := fun y hy => by
    rw [List.head?_append, h.head_of_leads y (hleads y hy)]
    rfl

/-- Nobody whom `p` picks is left, if there was not more than one. -/
theorem not_of_mem_eraseP (hnodup : line.Nodup) {p : α → Bool}
    (honly : ∀ x ∈ line, ∀ y ∈ line, p x = true → p y = true → x = y) {x : α}
    (hx : x ∈ line.eraseP p) : p x = false := by
  cases hpx : p x with
  | false => rfl
  | true =>
      obtain ⟨y, before, behind, -, hpy, hline, herase⟩ :=
        List.exists_of_eraseP (List.mem_of_mem_eraseP hx) hpx
      have hy : y ∈ line := hline ▸ List.mem_append_right before List.mem_cons_self
      rw [honly x (List.mem_of_mem_eraseP hx) y hy hpx hpy, herase] at hx
      rw [hline, List.nodup_middle] at hnodup
      exact absurd hx (List.nodup_cons.mp hnodup).1

theorem leave (h : Attends line stands leads) {p : α → Bool}
    (honly : ∀ x ∈ line, ∀ y ∈ line, p x = true → p y = true → x = y)
    (hstands : ∀ x, p x = false → stands x → stands' x)
    (hleads : ∀ x, leads' x → leads x ∧ p x = false) :
    Attends (line.eraseP p) stands' leads' where
  stands_of_mem := fun x hx => hstands x (not_of_mem_eraseP h.nodup honly hx)
    (h.stands_of_mem x (List.mem_of_mem_eraseP hx))
  nodup := h.nodup.sublist List.eraseP_sublist
  head_of_leads := fun x hx => by
    obtain ⟨hold, hpx⟩ := hleads x hx
    have hhead := h.head_of_leads x hold
    cases line with
    | nil => cases hhead
    | cons y line =>
        cases hhead
        rw [List.eraseP_cons_of_neg (by simp [hpx])]
        rfl

end Attends

/-- Where a task stands to the line of its key. -/
inductive LinePlace
  | outside
  | waiting
  /-- First in line, and aware of it. -/
  | leading
deriving DecidableEq

/-- In the line of a key just those stand who are there by what they do, and only the first one
leads. -/
structure Lined (line : List Nat) (place : Nat → LinePlace) : Prop where
  attends : Attends line (fun t => place t ≠ .outside) (fun t => place t = .leading)
  mem_of_ne : ∀ t, place t ≠ .outside → t ∈ line

namespace Lined

variable {line : List Nat} {place : Nat → LinePlace} {t u : Nat}

theorem nil : Lined [] fun _ => .outside where
  attends := .nil fun _ => LinePlace.noConfusion
  mem_of_ne _ hne := absurd rfl hne

theorem join (h : Lined line place) (hout : place t = .outside) :
    Lined (line ++ [t]) (Function.update place t .waiting) := by
  constructor
  · refine h.attends.join (not_not_intro hout) ?_ (fun u hu => ?_) fun u hu => ?_
    · rw [Function.update_self]
      exact LinePlace.noConfusion
    · rw [Function.update_of_ne]
      · exact hu
      · rintro rfl
        exact hu hout
    · by_cases ht : u = t
      · rw [ht, Function.update_self] at hu
        cases hu
      · rwa [Function.update_of_ne ht] at hu
  · intro u hu
    by_cases ht : u = t
    · exact ht ▸ List.mem_append_right line List.mem_cons_self
    · rw [Function.update_of_ne ht] at hu
      exact List.mem_append_left _ (h.mem_of_ne u hu)

theorem turn (h : Lined line place) (hwait : place t = .waiting) (hhead : line.head? = some t) :
    Lined line (Function.update place t .leading) := by
  constructor
  · refine h.attends.stay (fun u hu => ?_) fun u hu => ?_
    · by_cases ht : u = t
      · rw [ht, Function.update_self]
        exact LinePlace.noConfusion
      · rwa [Function.update_of_ne ht]
    · by_cases ht : u = t
      · exact .inr (ht ▸ hhead)
      · rw [Function.update_of_ne ht] at hu
        exact .inl hu
  · intro u hu
    apply h.mem_of_ne
    by_cases ht : u = t
    · rw [ht, hwait]
      exact LinePlace.noConfusion
    · rwa [Function.update_of_ne ht] at hu

theorem leave (h : Lined line place) (t : Nat) :
    Lined (line.erase t) (Function.update place t .outside) := by
  constructor
  · rw [List.erase_eq_eraseP']
    refine h.attends.leave (fun u _ v _ hu hv => ?_) (fun u hu hne => ?_) fun u hu => ?_
    · exact (eq_of_beq hu).trans (eq_of_beq hv).symm
    · rwa [Function.update_of_ne (ne_of_beq_false hu)]
    · by_cases ht : u = t
      · rw [ht, Function.update_self] at hu
        cases hu
      · rw [Function.update_of_ne ht] at hu
        exact ⟨hu, beq_eq_false_iff_ne.mpr ht⟩
  · intro u hu
    by_cases ht : u = t
    · rw [ht, Function.update_self] at hu
      exact absurd rfl hu
    · rw [Function.update_of_ne ht] at hu
      exact (List.mem_erase_of_ne ht).mpr (h.mem_of_ne u hu)

end Lined

/-- The tasks that wait in a line, in order. -/
def waitersIn (line : List Nat) (place : Nat → LinePlace) : List Nat :=
  line.filter fun t => place t = .waiting

section Waiters

variable {line : List Nat} {place : Nat → LinePlace} {t : Nat}

theorem mem_waitersIn (h : Lined line place) : t ∈ waitersIn line place ↔ place t = .waiting := by
  rw [waitersIn, List.mem_filter, decide_eq_true_eq]
  refine ⟨And.right, fun hwait => ⟨h.mem_of_ne t ?_, hwait⟩⟩
  rw [hwait]
  exact LinePlace.noConfusion

theorem waitersIn_update_of_notMem (hnot : t ∉ line) (place' : LinePlace) :
    waitersIn line (Function.update place t place') = waitersIn line place := by
  refine List.filter_congr fun u hu => ?_
  rw [Function.update_of_ne]
  rintro rfl
  exact hnot hu

/-- Who joins a line waits behind all others. -/
theorem waitersIn_join (h : Lined line place) (hout : place t = .outside) :
    waitersIn (line ++ [t]) (Function.update place t .waiting) = waitersIn line place ++ [t] := by
  have hnot : t ∉ line := fun hmem => h.attends.stands_of_mem t hmem hout
  rw [waitersIn, List.filter_append, ← waitersIn, waitersIn_update_of_notMem hnot]
  simp

/-- Whose turn it is was the first to wait. -/
theorem waitersIn_turn (h : Lined line place) (hwait : place t = .waiting)
    (hhead : line.head? = some t) :
    waitersIn line place = t :: waitersIn line (Function.update place t .leading) := by
  obtain ⟨rest, rfl⟩ := List.head?_eq_some_iff.mp hhead
  have hnot : t ∉ rest := (List.nodup_cons.mp h.attends.nodup).1
  rw [waitersIn, waitersIn, List.filter_cons_of_pos (by simp [hwait]),
    List.filter_cons_of_neg (by simp), ← waitersIn, ← waitersIn, waitersIn_update_of_notMem hnot]

/-- Who leaves a line takes nobody else along. -/
theorem waitersIn_leave_sublist (line : List Nat) (place : Nat → LinePlace) (t : Nat) :
    (waitersIn (line.erase t) (Function.update place t .outside)).Sublist
      (waitersIn line place) := by
  refine .trans (List.monotone_filter_right _ fun u hu => ?_) (List.erase_sublist.filter _)
  rw [decide_eq_true_eq] at hu ⊢
  by_cases ht : u = t
  · rw [ht, Function.update_self] at hu
    cases hu
  · rwa [Function.update_of_ne ht] at hu

end Waiters

/-- Getting in line and leaving it changes no line if nobody stood in this one. -/
theorem LockTable.line_leave_join {κ τ : Type} [DecidableEq κ] [DecidableEq τ]
    {l : LockTable κ τ} {k : κ} (hfree : l.line k = []) (k' : κ) (t : τ) :
    ((l.join k t).leave k t).line k' = l.line k' := by
  rw [line_leave, line_join, line_join, if_pos rfl, hfree]
  split
  next heq => simp [heq, hfree]
  · rfl

/-- To leave all lines is to leave each. -/
theorem LockTable.line_leaveAll {κ τ : Type} [DecidableEq κ] [DecidableEq τ]
    {l : LockTable κ τ} {k : κ}
    (hnodup : (l.line k).Nodup) (t : τ) :
    (l.leaveAll t).line k = (l.line k).erase t := by
  have hfold : ∀ (keys : List κ) (l : LockTable κ τ), (l.line k).Nodup →
      (keys.foldl (fun l k => l.leave k t) l).line k =
        if k ∈ keys then (l.line k).erase t else l.line k := by
    intro keys
    induction keys with
    | nil =>
        intro l _
        rw [List.foldl_nil, if_neg List.not_mem_nil]
    | cons k' keys ih =>
        intro l hnodup
        have hleave := l.line_leave k' k t
        rw [List.foldl_cons]
        by_cases hk : k = k'
        · subst hk
          rw [if_pos rfl] at hleave
          rw [ih _ (hleave ▸ hnodup.sublist List.erase_sublist), hleave,
            if_pos List.mem_cons_self]
          split
          · exact List.erase_of_not_mem hnodup.not_mem_erase
          · rfl
        · rw [if_neg hk] at hleave
          rw [ih _ (hleave ▸ hnodup), hleave]
          simp only [List.mem_cons, hk, false_or]
  rw [leaveAll, hfold _ l hnodup]
  split
  · rfl
  next hk =>
    have hnone : l.line k = [] := by
      rw [line, Table.find?_eq_none_iff.mpr hk]
    rw [hnone]
    rfl

/-- Who comes first for writing is the only holder of a shared lock. -/
theorem SharedLock.eq_of_isHolder {τ : Type} [DecidableEq τ] {l : SharedLock τ} {t u : τ}
    (hhead : l.line.head? = some (t, .write)) (hholder : l.isHolder u = true) : u = t := by
  obtain ⟨line⟩ := l
  cases line with
  | nil => cases hhead
  | cons place line =>
      cases hhead
      rw [isHolder, holders, holdersOf, List.any_cons, List.any_nil, Bool.or_false,
        decide_eq_true_eq] at hholder
      exact hholder.symm

/-- Who comes first holds a shared lock. -/
theorem SharedLock.isHolder_of_head? {τ : Type} [DecidableEq τ] {l : SharedLock τ} {t : τ}
    {access : Access} (hhead : l.line.head? = some (t, access)) : l.isHolder t = true := by
  obtain ⟨line⟩ := l
  cases line with
  | nil => cases hhead
  | cons place line =>
      cases hhead
      cases access <;> simp [isHolder, holders, holdersOf]

/-- Who holds a shared lock and stands in its line for writing comes first. -/
theorem SharedLock.head_of_isHolder {τ : Type} [DecidableEq τ] {l : SharedLock τ} {t : τ}
    (haccess : ∀ access, (t, access) ∈ l.line → access = .write)
    (hholder : l.isHolder t = true) : l.line.head? = some (t, .write) := by
  obtain ⟨line⟩ := l
  rw [isHolder, holders] at hholder
  cases line with
  | nil => cases hholder
  | cons place rest =>
      obtain ⟨u, first⟩ := place
      cases first with
      | write =>
          rw [holdersOf, List.any_cons, List.any_nil, Bool.or_false,
            decide_eq_true_eq] at hholder
          rw [← hholder]
          rfl
      | read =>
          obtain ⟨⟨v, access⟩, hmem, hv⟩ := List.any_eq_true.mp hholder
          cases of_decide_eq_true hv
          rw [holdersOf, List.mem_cons] at hmem
          have hread : access = .read := by
            rcases hmem with heq | hmem
            · exact congrArg Prod.snd heq
            · have hread := List.mem_takeWhile_imp hmem
              exact of_decide_eq_true hread
          have hwrite : access = .write := by
            apply haccess
            rcases hmem with heq | hmem
            · exact heq ▸ List.mem_cons_self
            · exact List.mem_cons_of_mem _ ((List.takeWhile_sublist _).subset hmem)
          cases hread.symm.trans hwrite

/-- A reader that comes to other readers holds the lock at once. -/
theorem SharedLock.isHolder_join_read {τ : Type} [DecidableEq τ] {l : SharedLock τ}
    (hreaders : ∀ place ∈ l.line, place.2 = .read) (t : τ) :
    (l.join t .read).isHolder t = true := by
  obtain ⟨line⟩ := l
  rw [isHolder, holders, join, List.any_eq_true]
  refine ⟨(t, .read), ?_, decide_eq_true rfl⟩
  cases line with
  | nil => exact List.mem_cons_self
  | cons place rest =>
      obtain ⟨u, access⟩ := place
      cases hreaders (u, access) List.mem_cons_self
      rw [List.cons_append, holdersOf, List.takeWhile_eq_self_iff.mpr]
      · exact List.mem_cons_of_mem _ (List.mem_append_right rest List.mem_cons_self)
      · intro place hplace
        apply decide_eq_true
        rcases List.mem_append.mp hplace with hrest | hlast
        · exact hreaders place (List.mem_cons_of_mem _ hrest)
        · rw [List.mem_singleton.mp hlast]

end StreamStore
