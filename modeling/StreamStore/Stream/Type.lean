import StreamStore.Text.Quoted

/-!
# Stream types

The category of a stream, such as `orders`.  It doubles as the name of a directory, so it is 1 to
64 bytes of ASCII letters, digits, `-`, `_` and `.`, and does not start with `.`.
-/

namespace StreamStore

/-- Why a text is no stream type. -/
inductive StreamTypeFault
  | empty
  | tooLong
  | leadingDot
  /-- The first character that may not stand in a stream type. -/
  | invalidChar (c : Char)
deriving DecidableEq, Repr

/-- The most bytes a stream type may have. -/
def maxStreamTypeLength : Nat := 64

/-- The wording of a fault. -/
def StreamTypeFault.message : StreamTypeFault → String
  | .empty => "stream type must not be empty"
  | .tooLong => s!"stream type exceeds {maxStreamTypeLength} bytes"
  | .leadingDot => "stream type must not start with '.'"
  | .invalidChar c => "stream type contains invalid character " ++ Text.quotedChar c

namespace StreamType

def allows (c : Char) : Bool :=
  ('a' ≤ c && c ≤ 'z') || ('A' ≤ c && c ≤ 'Z') || ('0' ≤ c && c ≤ '9') ||
    c = '-' || c = '_' || c = '.'

/-- The first fault of a text as a stream type. -/
def fault? (s : String) : Option StreamTypeFault :=
  if s.isEmpty then some .empty
  else if maxStreamTypeLength < s.utf8ByteSize then some .tooLong
  else if s.toList.head? = some '.' then some .leadingDot
  else (s.toList.find? fun c => !allows c).map .invalidChar

end StreamType

/-- A text that names a category of streams. -/
structure StreamType where
  text : String
  valid : StreamType.fault? text = none
deriving DecidableEq

namespace StreamType

instance : Repr StreamType := ⟨fun t n => reprPrec t.text n⟩

/-- The stream type a text spells, or the first thing wrong with it. -/
def ofString (s : String) : Except StreamTypeFault StreamType :=
  match h : fault? s with
  | none => .ok ⟨s, h⟩
  | some fault => .error fault

@[simp] theorem ofString_text (t : StreamType) : ofString t.text = .ok t := by
  unfold ofString
  split
  · rfl
  · rename_i fault h
    rw [t.valid] at h
    cases h

theorem ofString_eq_ok_iff {s : String} {t : StreamType} : ofString s = .ok t ↔ t.text = s := by
  constructor
  · intro h
    unfold ofString at h
    split at h
    · cases h
      rfl
    · cases h
  · rintro rfl
    exact ofString_text t

end StreamType

end StreamStore
