import Announcer.Decimal.Layout
/-!
# Writing TOML scalars

A string is written in the plainest quotes that need no escape; where none do,
what cannot stand as it is gets escaped.
-/
namespace Announcer.Toml

/-- Floats are written in full, whole ones with `.0`. -/
def floatLayout : Decimal.Layout := ⟨none, true, "nan", "inf"⟩

/-- What decides how a string is quoted. -/
structure Traits where
  /-- It holds a character that no kind of quotes can show. -/
  hidden : Bool
  backslash : Bool
  newline : Bool
  doubleRun : Nat
  singleRun : Nat
  deriving DecidableEq, Repr

def longestRun (c : Char) (cs : List Char) : Nat :=
  (cs.foldl (fun (run, longest) c' =>
    if c' = c then (run + 1, max longest (run + 1)) else (0, longest)) (0, 0)).2

def isHidden (c : Char) : Bool :=
  c ≠ '\t' && c ≠ '\n' && (c.toNat < 0x20 || c.toNat = 0x7f)

def traits (cs : List Char) : Traits where
  hidden := cs.any isHidden
  backslash := cs.contains '\\'
  newline := cs.contains '\n'
  doubleRun := longestRun '"' cs
  singleRun := longestRun '\'' cs

inductive Quoting where
  | basic
  | literal
  | multilineBasic
  | multilineLiteral
  deriving DecidableEq, Repr

def Traits.quoting (t : Traits) : Quoting :=
  if !t.hidden && !t.backslash && t.doubleRun = 0 && !t.newline then .basic
  else if !t.hidden && t.singleRun = 0 && !t.newline then .literal
  else if !t.hidden && !t.backslash && t.doubleRun ≤ 2 then .multilineBasic
  else if !t.hidden && t.singleRun ≤ 2 then .multilineLiteral
  else if t.newline then .multilineBasic
  else .basic

def hexDigits (n : Nat) : List Char :=
  let digits := (Nat.toDigits 16 n).map Char.toUpper
  List.replicate (4 - digits.length) '0' ++ digits

/-- The characters with what cannot stand as it is escaped. At most `quotes`
double quotes stand beside each other, of which `run` were written; ends of
lines stand as they are when `lines` says so. -/
def escaped (quotes : Nat) (lines : Bool) (run : Nat) : List Char → List Char
  | [] => []
  | c :: rest =>
    if c = '"' then
      if run < quotes then '"' :: escaped quotes lines (run + 1) rest
      else '\\' :: '"' :: escaped quotes lines 0 rest
    else
      let shown :=
        if c = '\x08' then ['\\', 'b']
        else if c = '\t' then ['\\', 't']
        else if c = '\n' then if lines then ['\n'] else ['\\', 'n']
        else if c = '\x0c' then ['\\', 'f']
        else if c = '\r' then ['\\', 'r']
        else if c = '\\' then ['\\', '\\']
        else if isHidden c then '\\' :: 'u' :: hexDigits c.toNat
        else [c]
      shown ++ escaped quotes lines 0 rest

/-- The written form of a string. A string over several lines begins on a line
of its own. -/
def quote (s : String) : String :=
  let cs := s.toList
  let t := traits cs
  let first := if t.newline then ['\n'] else []
  String.ofList <| match t.quoting with
    | .basic => '"' :: escaped 0 false 0 cs ++ ['"']
    | .literal => '\'' :: cs ++ ['\'']
    | .multilineBasic => ['"', '"', '"'] ++ first ++ escaped 2 true 0 cs ++ ['"', '"', '"']
    | .multilineLiteral => ['\'', '\'', '\''] ++ first ++ cs ++ ['\'', '\'', '\'']

end Announcer.Toml
