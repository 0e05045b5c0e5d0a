import Announcer.Toml.Basic
/-!
# TOML scalars

Strings, numbers and moments as they stand in a document. Each reader takes the
characters ahead and gives what it read and what is left, or nothing.
-/
namespace Announcer.Toml

abbrev Reading (α : Type) := Option (α × List Char)

/-! ## Space -/

def isPrintable (c : Char) : Bool :=
  c = '\t' || (0x20 ≤ c.toNat && c.toNat ≠ 0x7f)

def isBlank (c : Char) : Bool := c = ' ' || c = '\t'

def skipBlank (cs : List Char) : List Char := cs.dropWhile isBlank

def newline? : List Char → Option (List Char)
  | '\n' :: rest => some rest
  | '\r' :: '\n' :: rest => some rest
  | _ => none

/-- Leaves out space, a comment, and the end of the line or of the document. -/
def endOfLine? (cs : List Char) : Option (List Char) :=
  let rest := match skipBlank cs with
    | '#' :: rest => rest.dropWhile isPrintable
    | rest => rest
  if rest.isEmpty then some [] else newline? rest

def skipSpace (inComment : Bool) : List Char → List Char
  | [] => []
  | '\n' :: rest => skipSpace false rest
  | '\r' :: '\n' :: rest => skipSpace false rest
  | c :: rest =>
    if inComment then if isPrintable c then skipSpace true rest else c :: rest
    else if c = '#' then skipSpace true rest
    else if isBlank c then skipSpace false rest
    else c :: rest

def skipLines : List Char → List Char
  | [] => []
  | '\n' :: rest => skipLines rest
  | '\r' :: '\n' :: rest => skipLines rest
  | c :: rest => if isBlank c then skipLines rest else c :: rest

/-! ## Strings -/

def hexDigit? (c : Char) : Option Nat :=
  if c.isDigit then some (c.toNat - 48)
  else if 'a' ≤ c ∧ c ≤ 'f' then some (c.toNat - 87)
  else if 'A' ≤ c ∧ c ≤ 'F' then some (c.toNat - 55)
  else none

/-- A character given by `n` hexadecimal digits. -/
def codePoint? (n : Nat) (cs : List Char) : Reading Char :=
  match (cs.take n).mapM hexDigit? with
  | none => none
  | some digits =>
    let code := digits.foldl (fun code d => code * 16 + d) 0
    if digits.length = n ∧ code.isValidChar then some (Char.ofNat code, cs.drop n) else none

def escape? : List Char → Reading Char
  | 'b' :: rest => some ('\x08', rest)
  | 't' :: rest => some ('\t', rest)
  | 'n' :: rest => some ('\n', rest)
  | 'f' :: rest => some ('\x0c', rest)
  | 'r' :: rest => some ('\r', rest)
  | '"' :: rest => some ('"', rest)
  | '\\' :: rest => some ('\\', rest)
  | 'u' :: rest => codePoint? 4 rest
  | 'U' :: rest => codePoint? 8 rest
  | _ => none

def gathered (before : List Char) : String := String.ofList before.reverse

def lineString : Nat → List Char → List Char → Reading String
  | 0, _, _ => none
  | _ + 1, _, [] => none
  | fuel + 1, before, c :: rest =>
    if c = '"' then some (gathered before, rest)
    else if c = '\\' then
      match escape? rest with
      | none => none
      | some (c, rest) => lineString fuel (c :: before) rest
    else if isPrintable c then lineString fuel (c :: before) rest
    else none

def lineLiteral (cs : List Char) : Reading String :=
  let body := cs.takeWhile fun c => isPrintable c && c ≠ '\''
  match cs.drop body.length with
  | '\'' :: rest => some (String.ofList body, rest)
  | _ => none

/-- Reads a string over several lines, behind its three quotes. Up to two quotes
belong to it when three more follow. -/
def multilineString (quote : Char) (escapes : Bool) : Nat → List Char → List Char → Reading String
  | 0, _, _ => none
  | _ + 1, _, [] => none
  | fuel + 1, before, c :: rest =>
    if c = quote then
      let run := ((c :: rest).takeWhile (· = quote)).length
      let own := if run < 3 then run else min (run - 3) 2
      let before := List.replicate own quote ++ before
      let rest := (c :: rest).drop own
      if run < 3 then multilineString quote escapes fuel before rest
      else some (gathered before, rest.drop 3)
    else if c = '\\' && escapes then
      match newline? (skipBlank rest) with
      | some rest => multilineString quote escapes fuel before (skipLines rest)
      | none =>
        match escape? rest with
        | none => none
        | some (c, rest) => multilineString quote escapes fuel (c :: before) rest
    else
      match newline? (c :: rest) with
      | some rest => multilineString quote escapes fuel ('\n' :: before) rest
      | none =>
        if isPrintable c then multilineString quote escapes fuel (c :: before) rest else none

def multiline (quote : Char) (escapes : Bool) (cs : List Char) : Reading String :=
  multilineString quote escapes (cs.length + 1) [] ((newline? cs).getD cs)

def quoted? : List Char → Reading String
  | '"' :: rest => lineString (rest.length + 1) [] rest
  | '\'' :: rest => lineLiteral rest
  | _ => none

def string? : List Char → Reading String
  | '"' :: '"' :: '"' :: rest => multiline '"' true rest
  | '\'' :: '\'' :: '\'' :: rest => multiline '\'' false rest
  | cs => quoted? cs

/-! ## Numbers -/

/-- Takes the digits ahead; an underscore may stand between two. -/
def digitRun (isDigit : Char → Bool) : List Char → List Char × List Char
  | [] => ([], [])
  | '_' :: c :: rest =>
    if isDigit c then let (digits, rest) := digitRun isDigit rest; (c :: digits, rest)
    else ([], '_' :: c :: rest)
  | c :: rest =>
    if isDigit c then let (digits, rest) := digitRun isDigit rest; (c :: digits, rest)
    else ([], c :: rest)

def digits? (isDigit : Char → Bool) (cs : List Char) : Reading (List Char) :=
  match cs with
  | [] => none
  | c :: _ => if isDigit c then some (digitRun isDigit cs) else none

def number (base : Nat) (digits : List Char) : Nat :=
  digits.foldl (fun n c => n * base + (hexDigit? c).getD 0) 0

/-- The integers that a document may hold have 64 bits. -/
def integer? (i : Int) : Option Value :=
  if Int64.minValue.toInt ≤ i ∧ i ≤ Int64.maxValue.toInt then some (.integer i) else none

def based? (base : Nat) (cs : List Char) : Option (Value × List Char) := do
  let inBase (c : Char) : Bool := (hexDigit? c).any (· < base)
  let (digits, rest) ← digits? inBase cs
  (integer? (number base digits)).map (·, rest)

/-- The float nearest to `significand * 10 ^ exponent`. One far outside the
range of floats is not worked out. -/
def nearest (significand : Nat) (exponent : Int) : Float :=
  let magnitude := exponent + (Nat.toDigits 10 significand).length
  if significand = 0 ∨ magnitude < -400 then 0.0
  else if 400 < magnitude then 1.0 / 0.0
  else Float.ofScientific significand (exponent < 0) exponent.natAbs

/-- A float from its parts. One without a sign that is too large is refused; a
negative one becomes infinite. -/
def float? (negative : Bool) (whole fraction : List Char) (exponent : Int) : Option Value :=
  let x := nearest (number 10 (whole ++ fraction)) (exponent - fraction.length)
  if negative then some (.real (-x)) else if x.isInf then none else some (.real x)

def exponent? : List Char → Option (Int × List Char)
  | [] => some (0, [])
  | c :: rest =>
    if c = 'e' ∨ c = 'E' then do
      let (negative, rest) := match rest with
        | '-' :: rest => (true, rest)
        | '+' :: rest => (false, rest)
        | rest => (false, rest)
      let (digits, rest) ← digits? Char.isDigit rest
      let e : Int := number 10 digits
      some (if negative then -e else e, rest)
    else some (0, c :: rest)

/-- Takes a decimal number behind its sign. A leading zero stands alone. -/
def decimal? (negative : Bool) (cs : List Char) : Option (Value × List Char) := do
  let (whole, rest) ← match cs with
    | '0' :: rest => some (['0'], rest)
    | cs => digits? Char.isDigit cs
  match rest with
  | '.' :: rest =>
    let (fraction, rest) ← digits? Char.isDigit rest
    let (e, rest) ← exponent? rest
    (float? negative whole fraction e).map (·, rest)
  | rest =>
    let (e, rest') ← exponent? rest
    if rest'.length < rest.length then (float? negative whole [] e).map (·, rest')
    else
      let n : Int := number 10 whole
      (integer? (if negative then -n else n)).map (·, rest)

def signed? (negative : Bool) : List Char → Reading Value
  | 'i' :: 'n' :: 'f' :: rest => some (.real (if negative then -1.0 / 0.0 else 1.0 / 0.0), rest)
  | 'n' :: 'a' :: 'n' :: rest => some (.real (0.0 / 0.0), rest)
  | cs => decimal? negative cs

def number? : List Char → Reading Value
  | '0' :: 'x' :: rest => based? 16 rest
  | '0' :: 'o' :: rest => based? 8 rest
  | '0' :: 'b' :: rest => based? 2 rest
  | '+' :: rest => signed? false rest
  | '-' :: rest => signed? true rest
  | cs => signed? false cs

/-! ## Moments -/

/-- Takes exactly `n` digits that stand for a number in a range. -/
def field? (n low high : Nat) (cs : List Char) : Reading Nat :=
  let digits := cs.take n
  if digits.length = n && digits.all Char.isDigit then
    let k := number 10 digits
    if low ≤ k ∧ k ≤ high then some (k, cs.drop n) else none
  else none

def expect (c : Char) : List Char → Option (List Char)
  | c' :: rest => if c = c' then some rest else none
  | [] => none

def daysOf (year month : Nat) : Nat :=
  if month = 2 then if year % 4 = 0 ∧ (year % 100 ≠ 0 ∨ year % 400 = 0) then 29 else 28
  else if month ∈ [4, 6, 9, 11] then 30
  else 31

def date? (cs : List Char) : Option (List Char) := do
  let (year, rest) ← field? 4 0 9999 cs
  let rest ← expect '-' rest
  let (month, rest) ← field? 2 1 12 rest
  let rest ← expect '-' rest
  let (_, rest) ← field? 2 1 (daysOf year month) rest
  some rest

def time? (cs : List Char) : Option (List Char) := do
  let (_, rest) ← field? 2 0 23 cs
  let rest ← expect ':' rest
  let (_, rest) ← field? 2 0 59 rest
  let rest ← expect ':' rest
  let (_, rest) ← field? 2 0 60 rest
  match rest with
  | '.' :: rest' =>
    let digits := rest'.takeWhile Char.isDigit
    some (if digits.isEmpty then rest else rest'.drop digits.length)
  | rest => some rest

def offset? : List Char → Option (List Char)
  | [] => none
  | c :: rest =>
    if c = 'Z' ∨ c = 'z' then some rest
    else if c = '+' ∨ c = '-' then do
      let (_, rest) ← field? 2 0 23 rest
      let rest ← expect ':' rest
      let (_, rest) ← field? 2 0 59 rest
      some rest
    else none

/-- Reads a moment: a date, a date with a time of day, or a time of day. -/
def moment? (cs : List Char) : Reading Value :=
  match date? cs with
  | none => (time? cs).map (.moment, ·)
  | some rest =>
    let withTime := match rest with
      | [] => none
      | c :: rest => if c = 'T' ∨ c = 't' ∨ c = ' ' then time? rest else none
    match withTime with
    | none => some (.moment, rest)
    | some rest => some (.moment, (offset? rest).getD rest)

end Announcer.Toml
