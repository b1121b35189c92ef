import StreamStore.Text.Hex
import StreamStore.Text.Unprintable

/-!
# Quoted text

A character between single quotes and a text between double quotes, as they stand in messages.
The quote in use, the backslash and the common controls are escaped by a backslash, a character
that does not show on its own by its code point in braces, and all else stands for itself.
-/

namespace StreamStore.Text

/-- One character inside quotes of the given kind. -/
def escaped (quote c : Char) : List Char :=
  if c = '\x00' then ['\\', '0']
  else if c = '\t' then ['\\', 't']
  else if c = '\r' then ['\\', 'r']
  else if c = '\n' then ['\\', 'n']
  else if c = '\\' ∨ c = quote then ['\\', c]
  else if isUnprintable c then
    ['\\', 'u', '\x7b'] ++ Hex.minimal c.toNat ++ ['\x7d']
  else [c]

def quotedChar (c : Char) : String := String.ofList (['\''] ++ escaped '\'' c ++ ['\''])

def quoted (s : String) : String :=
  String.ofList (['"'] ++ s.toList.flatMap (escaped '"') ++ ['"'])

end StreamStore.Text
