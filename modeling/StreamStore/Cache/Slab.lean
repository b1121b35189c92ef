import StreamStore.Table

/-!
# Slabs

Entries in one dense array, threaded by links from the most to the least recently used one, with an
index from keys to the places where their entries are.  No operation depends on how many entries
there are: taking an entry out moves the last one of the array into its place.

An operation answers `none` if it would have to look outside the array.
-/

namespace StreamStore

/-- An entry with the places of its neighbours. -/
structure SlabNode (κ ν : Type) where
  key : κ
  value : ν
  /-- The place of the entry used next after this one. -/
  newer : Option Nat := none
  /-- The place of the entry used last before this one. -/
  older : Option Nat := none
deriving DecidableEq, Repr

/-- Entries in the order of their last use. -/
structure Slab (κ ν : Type) where
  nodes : Array (SlabNode κ ν) := #[]
  /-- The place of the most recently used entry. -/
  newest : Option Nat := none
  /-- The place of the least recently used entry. -/
  oldest : Option Nat := none
  index : Table κ Nat := {}
deriving Repr

namespace Slab

variable {κ ν : Type}

instance : Inhabited (Slab κ ν) := ⟨{}⟩

def size (s : Slab κ ν) : Nat := s.index.size

/-- Change the entry at a place. -/
def change? (s : Slab κ ν) (place : Nat) (f : SlabNode κ ν → SlabNode κ ν) : Option (Slab κ ν) :=
  match s.nodes[place]? with
  | some node => some { s with nodes := s.nodes.set! place (f node) }
  | none => none

/-- Let what follows a place on the side of newer entries point to another place. -/
def linkNewer? (s : Slab κ ν) (at? target : Option Nat) : Option (Slab κ ν) :=
  match at? with
  | some place => s.change? place fun node => { node with older := target }
  | none => some { s with newest := target }

/-- Let what follows a place on the side of older entries point to another place. -/
def linkOlder? (s : Slab κ ν) (at? target : Option Nat) : Option (Slab κ ν) :=
  match at? with
  | some place => s.change? place fun node => { node with newer := target }
  | none => some { s with oldest := target }

/-- Take the entry at a place out of the order of use. -/
def detach? (s : Slab κ ν) (place : Nat) : Option (Slab κ ν) := do
  let node ← s.nodes[place]?
  let s ← s.linkNewer? node.newer node.older
  let s ← s.linkOlder? node.older node.newer
  s.change? place fun node => { node with newer := none, older := none }

/-- Put the entry at a place in front as the most recently used one. -/
def pushFront? (s : Slab κ ν) (place : Nat) : Option (Slab κ ν) := do
  let s ← s.change? place fun node => { node with newer := none, older := s.newest }
  let s ← match s.newest with
    | some front => s.change? front fun node => { node with newer := some place }
    | none => some s
  return { s with newest := some place, oldest := s.oldest.or (some place) }

def promote? (s : Slab κ ν) (place : Nat) : Option (Slab κ ν) :=
  if s.newest = some place then some s
  else (s.detach? place).bind fun s => s.pushFront? place

/-- The array without the entry at a place, which the last entry takes. -/
def swapOut (nodes : Array (SlabNode κ ν)) (place : Nat) : Array (SlabNode κ ν) :=
  match nodes.back? with
  | some last => (nodes.set! place last).pop
  | none => nodes

/-- The entries from a place on, at most `fuel` of them. -/
def walk (s : Slab κ ν) : Nat → Option Nat → List (κ × ν)
  | 0, _ => []
  | _, none => []
  | fuel + 1, some place =>
    match s.nodes[place]? with
    | some node => (node.key, node.value) :: walk s fuel node.older
    | none => []

/-- The entries, most recently used first. -/
def toList (s : Slab κ ν) : List (κ × ν) := s.walk s.nodes.size s.newest

variable [DecidableEq κ]

/-- Let the neighbours of the entry at a place, and the index, know where it is. -/
def repoint? (s : Slab κ ν) (place : Nat) : Option (Slab κ ν) :=
  if place < s.nodes.size then do
    let node ← s.nodes[place]?
    let s ← s.linkNewer? node.newer (some place)
    let s ← s.linkOlder? node.older (some place)
    return { s with index := s.index.modify node.key fun _ => place }
  else some s

/-- Take the entry at a place out. -/
def removeAt? (s : Slab κ ν) (place : Nat) : Option ((κ × ν) × Slab κ ν) := do
  let s ← s.detach? place
  let node ← s.nodes[place]?
  let s : Slab κ ν :=
    { s with nodes := swapOut s.nodes place, index := s.index.erase node.key }
  return ((node.key, node.value), ← s.repoint? place)

/-- The value held for a key. -/
def find? (s : Slab κ ν) (k : κ) : Option (Option ν) :=
  match s.index.find? k with
  | none => some none
  | some place => (s.nodes[place]?).map fun node => some node.value

/-- Make a key the most recently used one if it has an entry. -/
def touch? (s : Slab κ ν) (k : κ) : Option (Slab κ ν) :=
  match s.index.find? k with
  | none => some s
  | some place => s.promote? place

/-- Replace the value of a key that has an entry, and make it the most recently used one. -/
def replace? (s : Slab κ ν) (place : Nat) (v : ν) : Option (Slab κ ν) :=
  (s.change? place fun node => { node with value := v }).bind fun s => s.promote? place

/-- Add an entry for a key without one as the most recently used one. -/
def push? (s : Slab κ ν) (k : κ) (v : ν) : Option (Slab κ ν) :=
  let place := s.nodes.size
  { s with nodes := s.nodes.push { key := k, value := v },
           index := s.index.insert k place }.pushFront? place

/-- Take the least recently used entry out, if there is one. -/
def removeOldest? (s : Slab κ ν) : Option (Option (κ × ν) × Slab κ ν) :=
  match s.oldest with
  | none => some (none, s)
  | some place => (s.removeAt? place).map fun (entry, s) => (some entry, s)

/-- Write a value for a key, which becomes the most recently used one; a new key takes the place of
the least recently used one where `capacity` entries are there.  The answer is the value before and
the entry that had to go. -/
def upsert? (s : Slab κ ν) (capacity : Nat) (k : κ) (v : ν) :
    Option (Option ν × Option (κ × ν) × Slab κ ν) :=
  match s.index.find? k with
  | some place => do
    let node ← s.nodes[place]?
    return (some node.value, none, ← s.replace? place v)
  | none => do
    let (evicted, s) ← if capacity ≤ s.size then s.removeOldest? else some (none, s)
    return (none, evicted, ← s.push? k v)

/-- Take a key's entry out, if it has one. -/
def remove? (s : Slab κ ν) (k : κ) : Option (Option ν × Slab κ ν) :=
  match s.index.find? k with
  | none => some (none, s)
  | some place => (s.removeAt? place).map fun (entry, s) => (some entry.2, s)

/-- Take up to a number of entries out, least recently used first. -/
def removeOldestN? (s : Slab κ ν) : Nat → Option (List (κ × ν) × Slab κ ν)
  | 0 => some ([], s)
  | n + 1 => do
    match ← s.removeOldest? with
    | (none, s) => return ([], s)
    | (some entry, s) =>
      let (entries, s) ← s.removeOldestN? n
      return (entry :: entries, s)

end Slab

end StreamStore
