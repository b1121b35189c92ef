import StreamStore.Cache.Basic
import StreamStore.Sync.LockTable

/-!
# Populating a cache

When a key is missed, one task at a time finds its value while the others that miss the same key
wait in line; who gets to the front looks the key up again first.  A task may also just hold a
key's line, so that nobody finds its value in the meantime.

A fetch goes through the phases of `Fetch`; what it means to find a value is up to whoever runs it.
-/

namespace StreamStore

/-- A cache with a line in front of each key that is being populated. -/
structure Pool (κ ν τ : Type) where
  cache : Cache κ ν
  lines : LockTable κ τ := {}
deriving Repr

/-- How far a task that wants the value of a key has come. -/
inductive Fetch (ν ε : Type)
  /-- About to look the key up. -/
  | looking
  /-- Missed the key, about to get in line. -/
  | missed
  /-- In line. -/
  | inLine
  /-- First in line, with the key still absent: the value is being found. -/
  | finding
  /-- First in line, done with the key. -/
  | leaving (result : Except ε ν)
  | done (result : Except ε ν)
deriving Repr

/-- How many moves a fetch has ahead at most. -/
def Fetch.ahead {ν ε : Type} : Fetch ν ε → Nat
  | looking => 5
  | missed => 4
  | inLine => 3
  | finding => 2
  | leaving _ => 1
  | done _ => 0

namespace Pool

variable {κ ν τ ε : Type} [DecidableEq κ] [DecidableEq τ]

/-- One move of a fetch, `none` while it waits in line, finds its value, or is done. -/
def advance (p : Pool κ ν τ) (k : κ) (t : τ) : Fetch ν ε → Option (Pool κ ν τ × Fetch ν ε)
  | .looking =>
    match p.cache.lookup k with
    | (some v, cache) => some ({ p with cache }, .done (.ok v))
    | (none, cache) => some ({ p with cache }, .missed)
  | .missed => some ({ p with lines := p.lines.join k t }, .inLine)
  | .inLine =>
    if p.lines.holds k t then
      match p.cache.recheck k with
      | (some v, cache) => some ({ p with cache }, .leaving (.ok v))
      | (none, cache) => some ({ p with cache }, .finding)
    else none
  | .finding => none
  | .leaving result => some ({ p with lines := p.lines.leave k t }, .done result)
  | .done _ => none

theorem ahead_lt_of_advance {p p' : Pool κ ν τ} {k : κ} {t : τ} {f f' : Fetch ν ε}
    (h : p.advance k t f = some (p', f')) : f'.ahead < f.ahead := by
  cases f with
  | looking =>
    simp only [advance] at h
    split at h <;> · cases h; simp [Fetch.ahead]
  | missed => cases h; simp [Fetch.ahead]
  | inLine =>
    simp only [advance] at h
    split at h
    · split at h <;> · cases h; simp [Fetch.ahead]
    · cases h
  | finding => cases h
  | leaving result => cases h; simp [Fetch.ahead]
  | done result => cases h

/-- Move a fetch on until it waits in line, finds its value, or is done. -/
def run (p : Pool κ ν τ) (k : κ) (t : τ) (f : Fetch ν ε) : Pool κ ν τ × Fetch ν ε :=
  match h : p.advance k t f with
  | none => (p, f)
  | some (p', f') =>
    have := ahead_lt_of_advance h
    p'.run k t f'
termination_by f.ahead

/-- The value of a key was found, or could not be found: only a found value is cached.  The answer
is the entry that had to go. -/
def found (p : Pool κ ν τ) (k : κ) (result : Except ε ν) :
    Option (κ × ν) × Pool κ ν τ × Fetch ν ε :=
  match result with
  | .ok v =>
    let (_, evicted, cache) := p.cache.put k v
    (evicted, { p with cache }, .leaving result)
  | .error _ => (none, p, .leaving result)

def abandon (p : Pool κ ν τ) (t : τ) : Pool κ ν τ := { p with lines := p.lines.leaveAll t }

end Pool

end StreamStore
