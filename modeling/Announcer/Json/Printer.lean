import Announcer.Json.Basic
/-!
# Printed JSON

A value is printed without blanks. Strings escape the quote, the backslash and
the characters below U+0020, the five common ones by letter; everything else
stands as it is.
-/
namespace Announcer.Json

def hexDigit (n : Nat) : Char :=
  if n < 10 then Char.ofNat (48 + n) else Char.ofNat (87 + n)

def escape (c : Char) : List Char :=
  if c = '"' then ['\\', '"']
  else if c = '\\' then ['\\', '\\']
  else if 0x20 ≤ c.toNat then [c]
  else if c.toNat = 0x08 then ['\\', 'b']
  else if c.toNat = 0x09 then ['\\', 't']
  else if c.toNat = 0x0A then ['\\', 'n']
  else if c.toNat = 0x0C then ['\\', 'f']
  else if c.toNat = 0x0D then ['\\', 'r']
  else ['\\', 'u', '0', '0', hexDigit (c.toNat / 16), hexDigit (c.toNat % 16)]

/-- Writes a quoted string behind `out`. -/
def quoteTo (out : String) (s : String) : String :=
  (s.toList.foldl (fun out c => (escape c).foldl String.push out) (out.push '"')).push '"'

def quote (s : String) : String := quoteTo "" s

def integerText (i : Int) : String :=
  String.ofList (if i < 0 then '-' :: Decimal.digitsOf i.natAbs else Decimal.digitsOf i.natAbs)

def Number.text : Number → String
  | .integer i => integerText i
  | .real x => floatLayout.write x

namespace Value

mutual

def writeTo (out : String) : Value → String
  | .null => out ++ "null"
  | .bool true => out ++ "true"
  | .bool false => out ++ "false"
  | .number n => out ++ n.text
  | .string s => quoteTo out s
  | .array items => (writeItems "" (out.push '[') items).push ']'
  | .object members => (writeMembers "" (out.push '\x7b') members).push '\x7d'

/-- Writes items behind `out`, the first behind `sep` and the rest behind commas. -/
def writeItems (sep : String) (out : String) : List Value → String
  | [] => out
  | v :: rest => writeItems "," (v.writeTo (out ++ sep)) rest

def writeMembers (sep : String) (out : String) : List (String × Value) → String
  | [] => out
  | (k, v) :: rest => writeMembers "," (v.writeTo ((quoteTo (out ++ sep) k).push ':')) rest

end

def text (v : Value) : String := v.writeTo ""

end Value

end Announcer.Json
