import Announcer.Toml.Scalar
/-!
# Reading TOML

A document is read line by line: a header opens a table, and every other line
gives a key of the open table its value. Brackets and the parts of a dotted key
are limited in number.
-/
namespace Announcer.Toml

/-- The most brackets that may be open at a time, and the most parts of a key. -/
def maxDepth : Nat := 79

def isBare (c : Char) : Bool := c.isAlphanum || c = '_' || c = '-'

def keyPart? (cs : List Char) : Reading String :=
  match cs.takeWhile isBare with
  | [] => quoted? cs
  | part => some (String.ofList part, cs.drop part.length)

/-- Reads a key of at most so many parts: those it leads through, the last one
first, and its own. -/
def keyBehind? : Nat → List String → List Char → Reading (List String × String)
  | 0, _, _ => none
  | parts + 1, before, cs =>
    match keyPart? (skipBlank cs) with
    | none => none
    | some (part, rest) =>
      match skipBlank rest with
      | '.' :: rest => keyBehind? parts (part :: before) rest
      | rest => some ((before.reverse, part), rest)

def key? (cs : List Char) : Reading (List String × String) := keyBehind? maxDepth [] cs

def keyOf? (cs : List Char) : Reading (List String × String) :=
  match key? cs with
  | some (key, '=' :: rest) => some (key, skipBlank rest)
  | _ => none

mutual

def value? : Nat → Nat → List Char → Reading Value
  | 0, _, _ => none
  | _ + 1, _, [] => none
  | fuel + 1, depth, c :: rest =>
    if c = '[' then if depth = 0 then none else elements? fuel (depth - 1) [] rest
    else if c = '{' then
      if depth = 0 then none
      else
        match skipBlank rest with
        | '}' :: rest => some (.table .braces [], rest)
        | rest => members? fuel (depth - 1) [] rest
    else if c = '"' ∨ c = '\'' then (string? (c :: rest)).map fun (s, rest) => (.string s, rest)
    else
      match c :: rest with
      | 't' :: 'r' :: 'u' :: 'e' :: rest => some (.boolean true, rest)
      | 'f' :: 'a' :: 'l' :: 's' :: 'e' :: rest => some (.boolean false, rest)
      | cs => moment? cs <|> number? cs

/-- Reads the elements of an array up to the closing bracket. A comma may stand
behind the last one. -/
def elements? : Nat → Nat → List Value → List Char → Reading Value
  | 0, _, _, _ => none
  | fuel + 1, depth, before, cs =>
    match skipSpace false cs with
    | ']' :: rest => some (.array before.reverse, rest)
    | cs =>
      match value? fuel depth cs with
      | none => none
      | some (v, rest) =>
        match skipSpace false rest with
        | ',' :: rest => elements? fuel depth (v :: before) rest
        | ']' :: rest => some (.array (v :: before).reverse, rest)
        | _ => none

def members? : Nat → Nat → Members → List Char → Reading Value
  | 0, _, _, _ => none
  | fuel + 1, depth, m, cs =>
    match keyOf? cs with
    | none => none
    | some ((path, key), cs) =>
      match value? fuel depth cs with
      | none => none
      | some (v, rest) =>
        match assignIn path key v .braces m, skipBlank rest with
        | some m, ',' :: rest => members? fuel depth m rest
        | some m, '}' :: rest => some (.table .braces m, rest)
        | _, _ => none

end

/-- Reads a value. Every step takes a character or goes one bracket deeper. -/
def value (cs : List Char) : Reading Value := value? (2 * cs.length + 2) maxDepth cs

/-- A document on the way: the table that is open, and what there is so far. -/
structure Draft where
  header : List String
  document : Members
  deriving Repr

def headerLine (d : Draft) : List Char → Option (Draft × List Char)
  | '[' :: rest =>
    match key? rest with
    | some ((path, key), ']' :: ']' :: rest) => do
      let rest ← endOfLine? rest
      let document ← openElement path key d.document
      some (⟨path ++ [key], document⟩, rest)
    | _ => none
  | rest =>
    match key? rest with
    | some ((path, key), ']' :: rest) => do
      let rest ← endOfLine? rest
      let document ← openTable path key d.document
      some (⟨path ++ [key], document⟩, rest)
    | _ => none

def memberLine (d : Draft) (cs : List Char) : Option (Draft × List Char) := do
  let ((path, key), rest) ← keyOf? cs
  let (v, rest) ← value rest
  let rest ← endOfLine? rest
  let document ← assign d.header path key v d.document
  some ({ d with document }, rest)

def lines : Nat → Draft → List Char → Option Members
  | 0, _, _ => none
  | fuel + 1, d, cs =>
    match skipBlank cs with
    | [] => some d.document
    | '[' :: rest =>
      match headerLine d rest with
      | some (d, rest) => lines fuel d rest
      | none => none
    | c :: rest =>
      if c = '#' ∨ c = '\n' ∨ c = '\r' then
        match endOfLine? (c :: rest) with
        | some rest => lines fuel d rest
        | none => none
      else
        match memberLine d (c :: rest) with
        | some (d, rest) => lines fuel d rest
        | none => none

/-- Reads a document, which may begin with a byte order mark. -/
def read? (text : String) : Option Members :=
  let cs := match text.toList with
    | '\ufeff' :: rest => rest
    | cs => cs
  lines (cs.length + 1) ⟨[], []⟩ cs

end Announcer.Toml
