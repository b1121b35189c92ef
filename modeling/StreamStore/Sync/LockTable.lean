import StreamStore.Table

/-!
# Locks by key

One fair lock for each key, made when a task first asks for the key's lock and dropped when the
last task is done with it.  A lock is a gate with a line of tasks in front of it: the first in line
holds the lock, the others wait in the order in which they came.

Asking takes two steps and giving up or giving back takes two, and other tasks may move between
them: a task first gets hold of the key's gate (`attach`) and then gets in line (`enter`); it leaves
the line (`withdraw`) and then drops the gate if nobody refers to it any more (`reclaim`).  `join`
and `leave` do both steps at once, and `line` is what they are about.
-/

namespace StreamStore

/-- The lock of one key. -/
structure Gate (τ : Type) where
  /-- The tasks that refer to the gate and are not in line yet. -/
  approaching : List τ := []
  /-- The tasks in line; the first one holds the lock. -/
  line : List τ := []
deriving DecidableEq, Repr

/-- The locks of all keys that some task holds or awaits. -/
structure LockTable (κ τ : Type) where
  /-- The number of the gate in use for a key. -/
  current : Table κ Nat := {}
  /-- The gates by key and number. -/
  gates : Table (κ × Nat) (Gate τ) := {}
  /-- The number of the next gate. -/
  fresh : Nat := 0
deriving Repr

namespace Gate

variable {τ : Type}

def references (g : Gate τ) : Nat := g.approaching.length + g.line.length

variable [DecidableEq τ]

/-- Take a task away from a gate, wherever it stands. -/
def without (g : Gate τ) (t : τ) : Gate τ := ⟨g.approaching.erase t, g.line.erase t⟩

end Gate

namespace LockTable

variable {κ τ : Type}

instance : Inhabited (LockTable κ τ) := ⟨{}⟩

def size (l : LockTable κ τ) : Nat := l.current.size

variable [DecidableEq κ]

/-- A gate, empty if it was dropped. -/
def gate (l : LockTable κ τ) (place : κ × Nat) : Gate τ := (l.gates.find? place).getD {}

/-- The tasks in line for a key's lock. -/
def line (l : LockTable κ τ) (k : κ) : List τ :=
  match l.current.find? k with
  | some number => (l.gate (k, number)).line
  | none => []

/-- Get hold of a key's gate, which is made if there is none; the answer is its number. -/
def attach (l : LockTable κ τ) (k : κ) (t : τ) : Nat × LockTable κ τ :=
  match l.current.find? k with
  | some number =>
    let g := l.gate (k, number)
    (number, { l with
      gates := l.gates.insert (k, number) { g with approaching := g.approaching ++ [t] } })
  | none =>
    (l.fresh, {
      current := l.current.insert k l.fresh
      gates := l.gates.insert (k, l.fresh) { approaching := [t] }
      fresh := l.fresh + 1 })

theorem line_attach (l : LockTable κ τ) (k k' : κ) (t : τ) :
    (l.attach k t).2.line k' = l.line k' := by
  by_cases hk : k' = k
  · subst hk
    cases h : l.current.find? k' <;> simp [attach, line, gate, h]
  · have hplace (n m : Nat) : (k', n) ≠ (k, m) := fun e => hk (congrArg Prod.fst e)
    cases h : l.current.find? k
    · simp [attach, line, gate, h, Table.find?_insert_of_ne _ _ hk,
        Table.find?_insert_of_ne _ _ (hplace _ _)]
    · simp [attach, line, gate, h, Table.find?_insert_of_ne _ _ (hplace _ _)]

theorem current_attach_self (l : LockTable κ τ) (k : κ) (t : τ) :
    (l.attach k t).2.current.find? k = some (l.attach k t).1 := by
  cases h : l.current.find? k <;> simp [attach, h]

/-- Drop a key's gate if no task refers to it. -/
def reclaim (l : LockTable κ τ) (k : κ) : LockTable κ τ :=
  match l.current.find? k with
  | some number =>
    if (l.gate (k, number)).references = 0 then
      { l with current := l.current.erase k, gates := l.gates.erase (k, number) }
    else l
  | none => l

theorem line_reclaim (l : LockTable κ τ) (k k' : κ) : (l.reclaim k).line k' = l.line k' := by
  cases h : l.current.find? k with
  | none => simp [reclaim, h]
  | some number =>
    by_cases hr : (l.gate (k, number)).references = 0
    · by_cases hk : k' = k
      · subst hk
        have hline : (l.gate (k', number)).line = [] := by
          simp only [Gate.references] at hr
          exact List.eq_nil_of_length_eq_zero (by omega)
        simp [reclaim, line, h, hr, hline]
      · have hplace (n m : Nat) : (k', n) ≠ (k, m) := fun e => hk (congrArg Prod.fst e)
        simp only [reclaim, h, hr, if_true]
        simp [line, gate, Table.find?_erase_of_ne _ hk, Table.find?_erase_of_ne _ (hplace _ _)]
    · simp [reclaim, h, hr]

variable [DecidableEq τ]

def hasTurn (l : LockTable κ τ) (place : κ × Nat) (t : τ) : Bool :=
  (l.gate place).line.head? = some t

def holds (l : LockTable κ τ) (k : κ) (t : τ) : Bool := (l.line k).head? = some t

def enter (l : LockTable κ τ) (place : κ × Nat) (t : τ) : LockTable κ τ :=
  let g := l.gate place
  { l with gates := l.gates.insert place ⟨g.approaching.erase t, g.line ++ [t]⟩ }

/-- Give a lock back, or stop waiting for it; the next in line has it from now on. -/
def withdraw (l : LockTable κ τ) (place : κ × Nat) (t : τ) : LockTable κ τ :=
  { l with gates := l.gates.insert place ((l.gate place).without t) }

def join (l : LockTable κ τ) (k : κ) (t : τ) : LockTable κ τ :=
  let (number, l) := l.attach k t
  l.enter (k, number) t

/-- Leave the line for a key's lock, from wherever in it. -/
def leave (l : LockTable κ τ) (k : κ) (t : τ) : LockTable κ τ :=
  match l.current.find? k with
  | some number => (l.withdraw (k, number) t).reclaim k
  | none => l

def leaveAll (l : LockTable κ τ) (t : τ) : LockTable κ τ :=
  l.current.keys.foldl (fun l k => l.leave k t) l

@[simp] theorem gate_withdraw_self (l : LockTable κ τ) (place : κ × Nat) (t : τ) :
    (l.withdraw place t).gate place = (l.gate place).without t := by
  simp [withdraw, gate]

theorem gate_withdraw_of_ne (l : LockTable κ τ) {place place' : κ × Nat} (t : τ)
    (h : place' ≠ place) : (l.withdraw place t).gate place' = l.gate place' := by
  simp [withdraw, gate, Table.find?_insert_of_ne _ _ h]

/-- Getting in line puts a task behind all others in it. -/
theorem line_join (l : LockTable κ τ) (k k' : κ) (t : τ) :
    (l.join k t).line k' = if k' = k then l.line k ++ [t] else l.line k' := by
  have hattach := line_attach l k k' t
  have hself := current_attach_self l k t
  by_cases hk : k' = k
  · subst hk
    simp only [join, enter, line, gate] at hattach ⊢
    simp only [hself, Table.find?_insert_self] at hattach ⊢
    simp [hattach]
  · have hplace (n m : Nat) : (k', n) ≠ (k, m) := fun e => hk (congrArg Prod.fst e)
    simp only [join, enter, line, gate, Table.find?_insert_of_ne _ _ (hplace _ _)] at hattach ⊢
    simp [hattach, hk]

/-- Leaving takes a task out of the key's line and changes no other line. -/
theorem line_leave (l : LockTable κ τ) (k k' : κ) (t : τ) :
    (l.leave k t).line k' = if k' = k then (l.line k).erase t else l.line k' := by
  cases h : l.current.find? k with
  | none =>
    by_cases hk : k' = k
    · subst hk
      simp [leave, line, h]
    · simp [leave, h, hk]
  | some number =>
    simp only [leave, h, line_reclaim]
    by_cases hk : k' = k
    · subst hk
      have hcurrent : (l.withdraw (k', number) t).current.find? k' = some number := h
      simp [line, hcurrent, h, Gate.without]
    · have hplace (n m : Nat) : (k', n) ≠ (k, m) := fun e => hk (congrArg Prod.fst e)
      have hcurrent : (l.withdraw (k, number) t).current = l.current := rfl
      simp [line, hcurrent, hk, gate_withdraw_of_ne l t (hplace _ _)]

end LockTable

end StreamStore
