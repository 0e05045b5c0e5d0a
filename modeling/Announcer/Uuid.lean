import Announcer.Event
/-!
# Identifiers

The two identifiers of an event are version-4 UUIDs in lower case. Where they
come from is left open; `numbered` gives one for every number, different ones
for different numbers below `2 ^ 48`.
-/
namespace Announcer.Uuid

/-- The lower-case hexadecimal digits of `n`, the last `width` of them. -/
def hex : Nat → Nat → List Char
  | 0, _ => []
  | width + 1, n => hex width (n / 16) ++ [Json.hexDigit (n % 16)]

def numbered (n : Nat) : String :=
  "00000000-0000-4000-8000-" ++ String.ofList (hex 12 n)

def isHexDigit (c : Char) : Bool := c.isDigit || ('a' ≤ c && c ≤ 'f')

/-- True for the text of a version-4 UUID in lower case. -/
def isVersion4 (s : String) : Bool :=
  let cs := s.toList
  cs.length = 36 && (cs.zipIdx.all fun (c, i) =>
    if i = 8 ∨ i = 13 ∨ i = 18 ∨ i = 23 then c = '-'
    else if i = 14 then c = '4'
    else if i = 19 then "89ab".toList.contains c
    else isHexDigit c)

def eventIds (n : Nat) : EventIds := ⟨numbered (2 * n), numbered (2 * n + 1)⟩

end Announcer.Uuid
