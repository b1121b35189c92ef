/-!
# Shared locks

A fair lock that many readers or one writer may hold.  It is the line of the tasks that hold or
await it: a writer holds the lock when it is first in line, a reader when only readers are before
it.  So a waiting writer stops the readers that come after it.
-/

namespace StreamStore

/-- What a task wants a shared lock for. -/
inductive Access
  | read
  | write
deriving DecidableEq, Repr

/-- The line in front of a shared lock. -/
structure SharedLock (τ : Type) where
  line : List (τ × Access) := []
deriving DecidableEq, Repr

namespace SharedLock

variable {τ : Type}

instance : Inhabited (SharedLock τ) := ⟨{}⟩

def join (l : SharedLock τ) (t : τ) (access : Access) : SharedLock τ := ⟨l.line ++ [(t, access)]⟩

/-- The tasks in a line that hold the lock. -/
def holdersOf : List (τ × Access) → List (τ × Access)
  | [] => []
  | (t, .write) :: _ => [(t, .write)]
  | (t, .read) :: rest => (t, .read) :: (rest.takeWhile fun place => place.2 = .read)

def holders (l : SharedLock τ) : List (τ × Access) := holdersOf l.line

def admitsReader (l : SharedLock τ) : Bool := l.line.all fun place => place.2 = .read

/-- A writer that holds a lock is its only holder. -/
theorem holders_eq_of_write_mem {l : SharedLock τ} {t : τ} (h : (t, .write) ∈ l.holders) :
    l.holders = [(t, .write)] := by
  obtain ⟨line⟩ := l
  match line with
  | [] => cases h
  | (u, .write) :: rest =>
    simp only [holders, holdersOf, List.mem_singleton, Prod.mk.injEq, and_true] at h ⊢
    rw [h]
  | (u, .read) :: rest =>
    simp only [holders, holdersOf, List.mem_cons, Prod.mk.injEq, reduceCtorEq, and_false,
      false_or] at h
    have := List.all_takeWhile (p := fun place : τ × Access => decide (place.2 = .read)) (l := rest)
    simp only [List.all_eq_true] at this
    have := this _ h
    simp at this

variable [DecidableEq τ]

def isHolder (l : SharedLock τ) (t : τ) : Bool := l.holders.any fun place => place.1 = t

/-- Give a lock back, or stop waiting for it. -/
def leave (l : SharedLock τ) (t : τ) : SharedLock τ := ⟨l.line.eraseP fun place => place.1 = t⟩

end SharedLock

end StreamStore
