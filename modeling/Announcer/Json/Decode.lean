import Announcer.Json.Skip
/-!
# Reading typed data

A decoder reads data of a known shape straight from the text, so of two faults
the one that stands first is reported. A record may be written as an object or
as an array of its fields in order. In an object unknown members are passed
over, only optional fields may be missing, and no field may come twice.
-/
namespace Announcer.Json

/-- Reads data of one shape, given the budget and the depth of `value`. -/
abbrev Decoder (α : Type) := Nat → Nat → List Char → Reading α

namespace Decode

/-- The fault of a text that holds no value of the expected kind; a fault in
the text itself comes first. -/
def mismatch (expected : String) (cs : List Char) : Failure :=
  let wrong (found : Found) (rest : List Char) : Failure := .behind (.wrongType found expected) rest 0
  let judge {α : Type} (found : α → Found) : Reading α → Failure
    | .error e => e
    | .ok (x, rest) => wrong (found x) rest
  match cs with
  | 'n' :: rest => judge (fun _ => .null) (literal ['u', 'l', 'l'] rest)
  | 't' :: rest => judge (fun _ => .bool true) (literal ['r', 'u', 'e'] rest)
  | 'f' :: rest => judge (fun _ => .bool false) (literal ['a', 'l', 's', 'e'] rest)
  | '-' :: rest => judge .number (number false rest)
  | '"' :: rest => judge .string (stringTail [] rest)
  | '[' :: rest => wrong .array ('[' :: rest)
  | '\x7b' :: rest => wrong .object ('\x7b' :: rest)
  | c :: rest =>
    if c.isDigit then judge .number (number true (c :: rest))
    else .next .expectedValue (c :: rest)
  | [] => .next .eofValue []

def string : Decoder String := fun _ _ cs =>
  match skipBlanks cs with
  | '"' :: rest => stringTail [] rest
  | rest => .error (mismatch "a string" rest)

def bool : Decoder Bool := fun _ _ cs =>
  match skipBlanks cs with
  | 't' :: rest => (literal ['r', 'u', 'e'] rest).map (fun r => (true, r.2))
  | 'f' :: rest => (literal ['a', 'l', 's', 'e'] rest).map (fun r => (false, r.2))
  | rest => .error (mismatch "a boolean" rest)

def any : Decoder Value := fun budget depth cs => value budget depth cs

def nullable {α : Type} (d : Decoder α) : Decoder (Option α) := fun budget depth cs =>
  match skipBlanks cs with
  | 'n' :: rest => (literal ['u', 'l', 'l'] rest).map (fun r => (none, r.2))
  | rest => (d budget depth rest).map (fun r => (some r.1, r.2))

def listOf {α : Type} (d : Decoder α) : Decoder (List α) := fun budget depth cs =>
  match skipBlanks cs, depth with
  | '[' :: rest, depth + 1 => list (d budget depth) budget rest
  | '[' :: rest, 0 => .error (.next .tooDeep ('[' :: rest))
  | rest, _ => .error (mismatch "a sequence" rest)

/-- Reads an object whose values have one shape; of several members under one
key the last counts. -/
def mapOf {α : Type} (d : Decoder α) : Decoder (StringMap α) := fun budget depth cs =>
  match skipBlanks cs, depth with
  | '\x7b' :: rest, depth + 1 =>
    let member (acc : StringMap α) (k : String) (cs : List Char) : Reading (StringMap α) :=
      match colon cs with
      | .error e => .error e
      | .ok ((), cs) => (d budget depth cs).map (fun r => (acc.insert k r.1, r.2))
    members member budget .empty rest
  | '\x7b' :: rest, 0 => .error (.next .tooDeep ('\x7b' :: rest))
  | rest, _ => .error (mismatch "a map" rest)

/-- One field of a record: its name, whether it may be missing, and how it is
read into the record. -/
structure Field (σ : Type) where
  name : String
  optional : Bool
  read : Decoder (σ → σ)

def field {σ α : Type} (name : String) (d : Decoder α) (put : α → σ → σ) : Field σ :=
  ⟨name, false, fun budget depth cs => (d budget depth cs).map (fun r => (put r.1, r.2))⟩

def optionalField {σ α : Type} (name : String) (d : Decoder α) (put : Option α → σ → σ) :
    Field σ :=
  { field name (nullable d) put with optional := true }

section Record

variable {σ : Type} (budget depth : Nat)

/-- Reads one member into the record; `seen` are the fields read before. -/
def recordMember (fields : List (Field σ)) (acc : σ × List String) (k : String)
    (cs : List Char) : Reading (σ × List String) :=
  match fields.find? (fun f => f.name = k) with
  | none =>
    match colon cs with
    | .error e => .error e
    | .ok ((), cs) => (skip budget cs).map (fun r => (acc, r.2))
  | some f =>
    if acc.2.contains k then .error (.behind (.duplicateField k) cs 0)
    else
      match colon cs with
      | .error e => .error e
      | .ok ((), cs) => (f.read budget depth cs).map (fun r => ((r.1 acc.1, k :: acc.2), r.2))

/-- Reads the fields of a record that is written as an array, from the `index`th
on; `first` tells that no item was read yet. -/
def recordItems (expected : String) : Nat → Bool → List (Field σ) → σ → List Char → Reading σ
  | _, _, [], acc, cs =>
    match skipBlanks cs with
    | [] => .error (.next .eofList [])
    | ']' :: rest => .ok (acc, rest)
    | ',' :: rest =>
      match skipBlanks rest with
      | ']' :: rest => .error (.next .trailingComma (']' :: rest))
      | rest => .error (.next .trailingCharacters rest)
    | rest => .error (.next .trailingCharacters rest)
  | index, first, f :: fields, acc, cs =>
    let item (cs : List Char) : Reading σ :=
      match f.read budget depth cs with
      | .error e => .error e
      | .ok (put, rest) => recordItems expected (index + 1) false fields (put acc) rest
    match skipBlanks cs with
    | [] => .error (.next .eofList [])
    | ']' :: rest => .error (.behind (.wrongLength index expected) (']' :: rest) 0)
    | c :: rest =>
      if first then item (c :: rest)
      else if c = ',' then
        match skipBlanks rest with
        | [] => .error (.next .eofValue [])
        | ']' :: rest => .error (.next .trailingComma (']' :: rest))
        | rest => item rest
      else .error (.next .expectedListEnd (c :: rest))

end Record

def record {σ : Type} (name : String) (fields : List (Field σ)) (blank : σ) : Decoder σ :=
  fun budget depth cs =>
    match skipBlanks cs, depth with
    | '\x7b' :: rest, depth + 1 =>
      match members (recordMember budget depth fields) budget (blank, []) rest with
      | .error e => .error e
      | .ok ((acc, seen), rest) =>
        match fields.find? (fun f => !f.optional && !seen.contains f.name) with
        | some f => .error (.behind (.missingField f.name) rest 0)
        | none => .ok (acc, rest)
    | '[' :: rest, depth + 1 =>
      let count := toString fields.length ++ (if fields.length = 1 then " element" else " elements")
      recordItems budget depth ("struct " ++ name ++ " with " ++ count) 0 true fields blank rest
    | '\x7b' :: rest, 0 => .error (.next .tooDeep ('\x7b' :: rest))
    | '[' :: rest, 0 => .error (.next .tooDeep ('[' :: rest))
    | rest, _ => .error (mismatch ("struct " ++ name) rest)

end Decode

def Decoder.run {α : Type} (d : Decoder α) (text : String) : Except Failure α :=
  let cs := text.toList
  match d cs.length maxDepth cs with
  | .error e => .error e
  | .ok r => ended r

end Announcer.Json
