import Announcer.Json.Reader
/-!
# Skipping a value

A member that nobody asked for is passed over without being built. Its text is
checked less strictly than a value that is read: brackets nest without limit,
numbers may be out of range, and escapes need not pair up.
-/
namespace Announcer.Json.Skip

/-- A list or an object that is open around the place. -/
inductive Bracket where
  | list
  | object
  deriving DecidableEq

def stringTail : List Char → Reading Unit
  | [] => .error (.behind .eofString [] 0)
  | '"' :: rest => .ok ((), rest)
  | ['\\'] => .error (.behind .eofString [] 0)
  | '\\' :: 'u' :: a :: b :: c :: d :: rest =>
    if (hex4? a b c d).isSome then stringTail rest else .error (badHex (a :: b :: c :: d :: rest))
  | '\\' :: 'u' :: rest => .error (badHex rest)
  | '\\' :: c :: rest =>
    if (letterEscape? c).isSome then stringTail rest
    else .error (.behind .invalidEscape (c :: rest) 1)
  | c :: rest =>
    if c.toNat < 0x20 then .error (.behind .controlCharacter (c :: rest) 0) else stringTail rest

def exponent (cs : List Char) : Reading Unit :=
  let cs := match cs with
    | '+' :: rest => rest
    | '-' :: rest => rest
    | cs => cs
  match cs with
  | c :: rest =>
    if c.isDigit then .ok ((), rest.dropWhile Char.isDigit)
    else .error (.behind .invalidNumber (c :: rest) 1)
  | [] => .error (.behind .invalidNumber [] 0)

def numberTail : List Char → Reading Unit
  | '.' :: rest =>
    match rest.takeWhile Char.isDigit, rest.dropWhile Char.isDigit with
    | [], rest => .error (.next .invalidNumber rest)
    | _, 'e' :: rest => exponent rest
    | _, 'E' :: rest => exponent rest
    | _, rest => .ok ((), rest)
  | 'e' :: rest => exponent rest
  | 'E' :: rest => exponent rest
  | rest => .ok ((), rest)

def number : List Char → Reading Unit
  | [] => .error (.behind .invalidNumber [] 0)
  | '0' :: c :: rest =>
    if c.isDigit then .error (.next .invalidNumber (c :: rest)) else numberTail (c :: rest)
  | c :: rest =>
    if c.isDigit then numberTail (rest.dropWhile Char.isDigit)
    else .error (.behind .invalidNumber (c :: rest) 1)

/-- Passes a value that holds no other, or the bracket that opens one. -/
def leaf (cs : List Char) : Reading (Option Bracket) :=
  match skipBlanks cs with
  | [] => .error (.next .eofValue [])
  | 'n' :: rest => (literal ['u', 'l', 'l'] rest).map (fun r => (none, r.2))
  | 't' :: rest => (literal ['r', 'u', 'e'] rest).map (fun r => (none, r.2))
  | 'f' :: rest => (literal ['a', 'l', 's', 'e'] rest).map (fun r => (none, r.2))
  | '-' :: rest => (number rest).map (fun r => (none, r.2))
  | '"' :: rest => (stringTail rest).map (fun r => (none, r.2))
  | '[' :: rest => .ok (some .list, rest)
  | '\x7b' :: rest => .ok (some .object, rest)
  | c :: rest =>
    if c.isDigit then (number (c :: rest)).map (fun r => (none, r.2))
    else .error (.next .expectedValue (c :: rest))

/-- Closes as many brackets as the text does. Results in the brackets still
open before the next value, none when the outermost one was closed. `comma`
tells whether a comma may stand here. -/
def close : Nat → Bool → List Bracket → List Char → Reading (List Bracket)
  | 0, _, _, cs => .ok ([], cs)
  | _ + 1, _, [], cs => .ok ([], cs)
  | budget + 1, comma, b :: outer, cs =>
    match b, skipBlanks cs with
    | .list, ']' :: rest => close budget true outer rest
    | .object, '\x7d' :: rest => close budget true outer rest
    | .list, [] => .error (.next .eofList [])
    | .object, [] => .error (.next .eofObject [])
    | _, rest =>
      match comma, b, rest with
      | true, _, ',' :: rest => .ok (b :: outer, rest)
      | true, .list, rest => .error (.next .expectedListEnd rest)
      | true, .object, rest => .error (.next .expectedObjectEnd rest)
      | false, _, rest => .ok (b :: outer, rest)

def key (cs : List Char) : Reading Unit :=
  match skipBlanks cs with
  | [] => .error (.next .eofObject [])
  | '"' :: rest =>
    match stringTail rest with
    | .error e => .error e
    | .ok ((), rest) => colon rest
  | rest => .error (.next .keyNotString rest)

/-- Passes one value inside the given brackets, and then everything up to the
end of the outermost one. -/
def run : Nat → List Bracket → List Char → Reading Unit
  | 0, _, cs => .ok ((), cs)
  | budget + 1, stack, cs =>
    match leaf cs with
    | .error e => .error e
    | .ok (opened, rest) =>
      let closed := match opened with
        | some b => close (budget + 1) false (b :: stack) rest
        | none => close (budget + 1) true stack rest
      match closed with
      | .error e => .error e
      | .ok ([], rest) => .ok ((), rest)
      | .ok (.list :: outer, rest) => run budget (.list :: outer) rest
      | .ok (.object :: outer, rest) =>
        match key rest with
        | .error e => .error e
        | .ok ((), rest) => run budget (.object :: outer) rest

end Skip

def skip (budget : Nat) (cs : List Char) : Reading Unit :=
  Skip.run budget [] cs

end Announcer.Json
