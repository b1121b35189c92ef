import StreamStore.Stream.Id
import StreamStore.Text.Hex

/-!
# Brief stream identities

A stream identity in brief is the type and the key, without the key's leading zeros, with a slash
between them.
-/

namespace StreamStore

/-- Why a text is no stream identity. -/
inductive BriefFault
  | noSlash
  | key
  | type (fault : StreamTypeFault)
deriving DecidableEq, Repr

namespace Uuid

/-- The key that hexadecimal digits write, perhaps after a plus sign and without leading zeros. -/
def ofBriefDigits? (cs : List Char) : Option Uuid :=
  let ds := if cs.head? = some '+' then cs.drop 1 else cs
  if ds.isEmpty then none
  else (Hex.decode? ds).bind fun n => if n < 1 <<< 128 then some (ofNat n) else none

end Uuid

namespace StreamId

def brief (s : StreamId) : String := s.type.text ++ "/" ++ String.ofList (Hex.minimal s.key.toNat)

/-- Read a stream identity in brief; the key comes after the last slash, and is looked at first. -/
def ofBrief (text : String) : Except BriefFault StreamId := do
  let cs := text.toList
  let key := (cs.reverse.takeWhile (· ≠ '/')).reverse
  if key.length = cs.length then throw .noSlash
  let some key := Uuid.ofBriefDigits? key | throw .key
  match StreamType.ofString (String.ofList ((cs.reverse.dropWhile (· ≠ '/')).drop 1).reverse) with
  | .ok type => return ⟨key, type⟩
  | .error fault => throw (.type fault)

end StreamId

end StreamStore
