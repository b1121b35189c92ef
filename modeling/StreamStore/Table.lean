/-!
# Lookup tables

A finite table from keys to values, kept as a list of rows with the most recently written row
first.  Writing a key replaces its row, so a key never has two.  The lemmas say what looking a
key up answers after each operation; nothing else needs to know how the rows are kept.
-/

namespace StreamStore

/-- A finite table from keys to values. -/
structure Table (κ ν : Type) where
  /-- The rows, at most one for each key. -/
  rows : List (κ × ν) := []
deriving Repr

namespace Table

variable {κ ν : Type}

instance : Inhabited (Table κ ν) := ⟨{}⟩

def keys (t : Table κ ν) : List κ := t.rows.map (·.1)

def values (t : Table κ ν) : List ν := t.rows.map (·.2)

def size (t : Table κ ν) : Nat := t.rows.length

variable [DecidableEq κ]

/-- The value written for a key, if any. -/
def find? (t : Table κ ν) (k : κ) : Option ν :=
  (t.rows.find? fun row => row.1 = k).map (·.2)

def contains (t : Table κ ν) (k : κ) : Bool := (t.find? k).isSome

def erase (t : Table κ ν) (k : κ) : Table κ ν :=
  ⟨t.rows.filter fun row => row.1 ≠ k⟩

def insert (t : Table κ ν) (k : κ) (v : ν) : Table κ ν :=
  ⟨(k, v) :: (t.erase k).rows⟩

/-- Change the value of a key that has one. -/
def modify (t : Table κ ν) (k : κ) (f : ν → ν) : Table κ ν :=
  match t.find? k with
  | some v => t.insert k (f v)
  | none => t

@[simp] theorem find?_empty (k : κ) : ({} : Table κ ν).find? k = none := rfl

theorem find?_erase (t : Table κ ν) (k k' : κ) :
    (t.erase k).find? k' = if k' = k then none else t.find? k' := by
  obtain ⟨rows⟩ := t
  simp only [find?, erase]
  induction rows with
  | nil => simp
  | cons row rows ih =>
    by_cases hk : row.1 = k
    · have hdrop : (row :: rows).filter (fun row => row.1 ≠ k)
          = rows.filter (fun row => row.1 ≠ k) := by simp [hk]
      rw [hdrop, ih]
      by_cases hkk : k' = k
      · simp [hkk]
      · have hne : ¬ row.1 = k' := fun h => hkk (h ▸ hk)
        simp [hkk, hne]
    · have hkeep : (row :: rows).filter (fun row => row.1 ≠ k)
          = row :: rows.filter (fun row => row.1 ≠ k) := by simp [hk]
      rw [hkeep]
      by_cases hkk : row.1 = k'
      · have hne : k' ≠ k := fun h => hk (hkk.trans h)
        simp [hkk, hne]
      · simpa [hkk] using ih

@[simp] theorem find?_erase_self (t : Table κ ν) (k : κ) : (t.erase k).find? k = none := by
  simp [find?_erase]

theorem find?_erase_of_ne (t : Table κ ν) {k k' : κ} (h : k' ≠ k) :
    (t.erase k).find? k' = t.find? k' := by
  simp [find?_erase, h]

theorem find?_insert (t : Table κ ν) (k k' : κ) (v : ν) :
    (t.insert k v).find? k' = if k' = k then some v else t.find? k' := by
  by_cases h : k' = k
  · subst h
    simp [find?, insert]
  · have hne : ¬ k = k' := fun e => h e.symm
    have hrest : (t.insert k v).find? k' = (t.erase k).find? k' := by
      simp [find?, insert, hne]
    rw [hrest, find?_erase_of_ne t h]
    simp [h]

@[simp] theorem find?_insert_self (t : Table κ ν) (k : κ) (v : ν) :
    (t.insert k v).find? k = some v := by
  simp [find?_insert]

theorem find?_insert_of_ne (t : Table κ ν) {k k' : κ} (v : ν) (h : k' ≠ k) :
    (t.insert k v).find? k' = t.find? k' := by
  simp [find?_insert, h]

theorem find?_modify (t : Table κ ν) (k k' : κ) (f : ν → ν) :
    (t.modify k f).find? k' = if k' = k then (t.find? k).map f else t.find? k' := by
  unfold modify
  cases h : t.find? k with
  | none =>
    by_cases hk : k' = k
    · simp [hk, h]
    · simp [hk]
  | some v => simp [find?_insert]

theorem contains_iff (t : Table κ ν) (k : κ) : t.contains k ↔ ∃ v, t.find? k = some v := by
  simp [contains, Option.isSome_iff_exists]

end Table

end StreamStore
