import Announcer.Json.Number
/-!
# Reading JSON

The reader takes a text apart character by character. Brackets nest to a fixed
depth; `budget` bounds the number of items of one list and is the length of the
text, which no list can exceed.

`list` and `members` are written for any kind of item, so that typed data is
read by the same rules as a plain `Value`.
-/
namespace Announcer.Json

/-- How deep brackets may nest. -/
def maxDepth : Nat := 127

def isBlank (c : Char) : Bool :=
  c = ' ' || c = '\t' || c = '\n' || c = '\r'

def skipBlanks (cs : List Char) : List Char := cs.dropWhile isBlank

/-- Reads the rest of a literal; the character that differs is passed. -/
def literal : List Char → List Char → Reading Unit
  | [], cs => .ok ((), cs)
  | _ :: _, [] => .error (.behind .eofValue [] 0)
  | x :: xs, c :: cs => if c = x then literal xs cs else .error (.behind .expectedIdent (c :: cs) 1)

/-! ## Strings -/

def hexValue? (c : Char) : Option Nat :=
  if '0' ≤ c ∧ c ≤ '9' then some (c.toNat - 48)
  else if 'a' ≤ c ∧ c ≤ 'f' then some (c.toNat - 87)
  else if 'A' ≤ c ∧ c ≤ 'F' then some (c.toNat - 55)
  else none

def hex4? (a b c d : Char) : Option Nat := do
  let a ← hexValue? a
  let b ← hexValue? b
  let c ← hexValue? c
  let d ← hexValue? d
  return ((a * 16 + b) * 16 + c) * 16 + d

/-- The fault of an escape whose four digits are not there: the end of the text
when it is nearer than four bytes, and otherwise a wrong digit. -/
def badHex (cs : List Char) : Failure :=
  if byteLength cs < 4 then .behind .eofString [] 0 else .behind .invalidEscape cs 4

def letterEscape? : Char → Option Char
  | '"' => some '"'
  | '\\' => some '\\'
  | '/' => some '/'
  | 'b' => some '\x08'
  | 'f' => some '\x0c'
  | 'n' => some '\n'
  | 'r' => some '\r'
  | 't' => some '\t'
  | _ => none

def isLeading (n : Nat) : Bool := 0xD800 ≤ n && n ≤ 0xDBFF

def isTrailing (n : Nat) : Bool := 0xDC00 ≤ n && n ≤ 0xDFFF

def pairChar (leading trailing : Nat) : Char :=
  Char.ofNat ((leading - 0xD800) * 1024 + (trailing - 0xDC00) + 0x10000)

/-- Reads a string behind its opening quote; `acc` holds what was read, in
reverse. -/
def stringTail (acc : List Char) : List Char → Reading String
  | [] => .error (.behind .eofString [] 0)
  | '"' :: rest => .ok (String.ofList acc.reverse, rest)
  | ['\\'] => .error (.behind .eofString [] 0)
  | '\\' :: 'u' :: a :: b :: c :: d :: rest =>
    match hex4? a b c d with
    | none => .error (badHex (a :: b :: c :: d :: rest))
    | some n =>
      if isTrailing n then .error (.behind .loneSurrogate rest 0)
      else if isLeading n then
        match rest with
        | [] => .error (.behind .eofString [] 0)
        | ['\\'] => .error (.behind .eofString [] 0)
        | '\\' :: 'u' :: a :: b :: c :: d :: rest =>
          match hex4? a b c d with
          | none => .error (badHex (a :: b :: c :: d :: rest))
          | some m =>
            if isTrailing m then stringTail (pairChar n m :: acc) rest
            else .error (.behind .loneSurrogate rest 0)
        | '\\' :: 'u' :: rest => .error (badHex rest)
        | '\\' :: rest => .error (.behind .unexpectedEndOfEscape rest 1)
        | rest => .error (.behind .unexpectedEndOfEscape rest 1)
      else stringTail (Char.ofNat n :: acc) rest
  | '\\' :: 'u' :: rest => .error (badHex rest)
  | '\\' :: c :: rest =>
    match letterEscape? c with
    | some x => stringTail (x :: acc) rest
    | none => .error (.behind .invalidEscape (c :: rest) 1)
  | c :: rest =>
    if c.toNat < 0x20 then .error (.behind .controlCharacter (c :: rest) 1)
    else stringTail (c :: acc) rest

/-! ## Lists and members -/

section Items

variable {α : Type} (item : List Char → Reading α)

def listTail : Nat → List α → List Char → Reading (List α)
  | 0, _, cs => .error (.next .eofList cs)
  | budget + 1, acc, cs =>
    match skipBlanks cs with
    | [] => .error (.next .eofList [])
    | ']' :: rest => .ok (acc.reverse, rest)
    | ',' :: rest =>
      match skipBlanks rest with
      | [] => .error (.next .eofValue [])
      | ']' :: rest => .error (.next .trailingComma (']' :: rest))
      | rest =>
        match item rest with
        | .error e => .error e
        | .ok (x, rest) => listTail budget (x :: acc) rest
    | rest => .error (.next .expectedListEnd rest)

def list (budget : Nat) (cs : List Char) : Reading (List α) :=
  match skipBlanks cs with
  | [] => .error (.next .eofList [])
  | ']' :: rest => .ok ([], rest)
  | rest =>
    match item rest with
    | .error e => .error e
    | .ok (x, rest) => listTail item budget [x] rest

end Items

def colon (cs : List Char) : Reading Unit :=
  match skipBlanks cs with
  | [] => .error (.next .eofObject [])
  | ':' :: rest => .ok ((), rest)
  | rest => .error (.next .expectedColon rest)

section Members

variable {σ : Type} (member : σ → String → List Char → Reading σ)

/-- Reads a key behind its quote and hands it on with the text behind it. -/
def keyed (acc : σ) (cs : List Char) : Reading σ :=
  match stringTail [] cs with
  | .error e => .error e
  | .ok (k, rest) => member acc k rest

def membersTail : Nat → σ → List Char → Reading σ
  | 0, _, cs => .error (.next .eofObject cs)
  | budget + 1, acc, cs =>
    match skipBlanks cs with
    | [] => .error (.next .eofObject [])
    | '\x7d' :: rest => .ok (acc, rest)
    | ',' :: rest =>
      match skipBlanks rest with
      | [] => .error (.next .eofValue [])
      | '"' :: rest =>
        match keyed member acc rest with
        | .error e => .error e
        | .ok (acc, rest) => membersTail budget acc rest
      | '\x7d' :: rest => .error (.next .trailingComma ('\x7d' :: rest))
      | rest => .error (.next .keyNotString rest)
    | rest => .error (.next .expectedObjectEnd rest)

/-- Reads an object behind its opening brace. `member` gets what was read so
far, the key, and the text behind the key. -/
def members (budget : Nat) (start : σ) (cs : List Char) : Reading σ :=
  match skipBlanks cs with
  | [] => .error (.next .eofObject [])
  | '\x7d' :: rest => .ok (start, rest)
  | '"' :: rest =>
    match keyed member start rest with
    | .error e => .error e
    | .ok (acc, rest) => membersTail member budget acc rest
  | rest => .error (.next .keyNotString rest)

end Members

/-! ## Values -/

/-- Reads one value, with `depth` more brackets allowed around what it holds. -/
def value (budget : Nat) (depth : Nat) (cs : List Char) : Reading Value :=
  match skipBlanks cs with
  | [] => .error (.next .eofValue [])
  | 'n' :: rest => (literal ['u', 'l', 'l'] rest).map (fun r => (.null, r.2))
  | 't' :: rest => (literal ['r', 'u', 'e'] rest).map (fun r => (.bool true, r.2))
  | 'f' :: rest => (literal ['a', 'l', 's', 'e'] rest).map (fun r => (.bool false, r.2))
  | '-' :: rest => (number false rest).map (fun r => (.number r.1, r.2))
  | '"' :: rest => (stringTail [] rest).map (fun r => (.string r.1, r.2))
  | '[' :: rest =>
    match depth with
    | 0 => .error (.next .tooDeep ('[' :: rest))
    | depth + 1 =>
      (list (value budget depth) budget rest).map (fun r => (.array r.1, r.2))
  | '\x7b' :: rest =>
    match depth with
    | 0 => .error (.next .tooDeep ('\x7b' :: rest))
    | depth + 1 =>
      let member (acc : List (String × Value)) (k : String) (cs : List Char) :
          Reading (List (String × Value)) :=
        match colon cs with
        | .error e => .error e
        | .ok ((), cs) =>
          (value budget depth cs).map (fun r => (Entries.insert k r.1 acc, r.2))
      (members member budget [] rest).map (fun r => (.object r.1, r.2))
  | c :: rest =>
    if c.isDigit then (number true (c :: rest)).map (fun r => (.number r.1, r.2))
    else .error (.next .expectedValue (c :: rest))

def ended {α : Type} (r : α × List Char) : Except Failure α :=
  match skipBlanks r.2 with
  | [] => .ok r.1
  | rest => .error (.next .trailingCharacters rest)

def parse (text : String) : Except Failure Value :=
  let cs := text.toList
  match value cs.length maxDepth cs with
  | .error e => .error e
  | .ok r => ended r

end Announcer.Json
