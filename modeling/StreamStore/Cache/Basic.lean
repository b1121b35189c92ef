import StreamStore.Cache.Slab

/-!
# Caches

A bounded number of entries, of which the least recently used one goes when a new one comes to a
full cache.  A cache counts what happens to it.
-/

namespace StreamStore

/-- A bounded number of entries in the order of their last use. -/
structure Cache (κ ν : Type) where
  /-- How many entries there may be. -/
  capacity : Nat
  slab : Slab κ ν := {}
  /-- Lookups that found their key. -/
  hits : Nat := 0
  /-- Lookups that did not. -/
  misses : Nat := 0
  /-- Keys that came in. -/
  insertions : Nat := 0
  /-- Entries that had to go for want of room or because the oldest ones were dropped. -/
  evictions : Nat := 0
deriving Repr

namespace Cache

variable {κ ν : Type}

/-- An empty cache, for at least one entry. -/
def ofCapacity (capacity : Nat) : Cache κ ν := { capacity := max capacity 1 }

def size (c : Cache κ ν) : Nat := c.slab.size

/-- The entries, most recently used first. -/
def entries (c : Cache κ ν) : List (κ × ν) := c.slab.toList

/-- The keys, most recently used first. -/
def keys (c : Cache κ ν) : List κ := c.entries.map (·.1)

def display (c : Cache κ ν) : String :=
  "LruCache \x7b capacity: " ++ toString c.capacity ++ ", len: " ++ toString c.size ++ " \x7d"

variable [DecidableEq κ]

/-- The value of a key; its place in the order of use stays. -/
def peek (c : Cache κ ν) (k : κ) : Option ν := ((c.slab.find? k).getD none)

def contains (c : Cache κ ν) (k : κ) : Bool := (c.peek k).isSome

def touch (c : Cache κ ν) (k : κ) : Cache κ ν := { c with slab := (c.slab.touch? k).getD c.slab }

/-- Look a key up and count the lookup. -/
def lookup (c : Cache κ ν) (k : κ) : Option ν × Cache κ ν :=
  match c.peek k with
  | some v => (some v, { c.touch k with hits := c.hits + 1 })
  | none => (none, { c with misses := c.misses + 1 })

def recheck (c : Cache κ ν) (k : κ) : Option ν × Cache κ ν := (c.peek k, c.touch k)

/-- Write a value for a key.  The answer is the value before and the entry that had to go. -/
def put (c : Cache κ ν) (k : κ) (v : ν) : Option ν × Option (κ × ν) × Cache κ ν :=
  match c.slab.upsert? c.capacity k v with
  | none => (none, none, c)
  | some (some previous, evicted, slab) => (some previous, evicted, { c with slab })
  | some (none, evicted, slab) =>
    (none, evicted, { c with
      slab
      insertions := c.insertions + 1
      evictions := c.evictions + (if evicted.isSome then 1 else 0) })

/-- Make a key the most recently used one if its value passes a test; the answer says whether. -/
def touchIf (c : Cache κ ν) (k : κ) (test : ν → Bool) : Bool × Cache κ ν :=
  if (c.peek k).any test then (true, c.touch k) else (false, c)

/-- Take a key's entry out. -/
def remove (c : Cache κ ν) (k : κ) : Option ν × Cache κ ν :=
  match c.slab.remove? k with
  | none => (none, c)
  | some (value, slab) => (value, { c with slab })

/-- Evict up to a number of entries, the least recently used first. -/
def dropOldest (c : Cache κ ν) (n : Nat) : List (κ × ν) × Cache κ ν :=
  match c.slab.removeOldestN? (min n c.size) with
  | none => ([], c)
  | some (evicted, slab) => (evicted, { c with slab, evictions := c.evictions + evicted.length })

end Cache

end StreamStore
