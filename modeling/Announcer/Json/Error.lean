import Announcer.Json.Printer
import Announcer.Json.Visible
/-!
# Why a text is not JSON

A failure is a cause and the number of bytes that were left behind its place;
the line and the column follow from the text. Places are counted in bytes
because a fault can lie inside a character.
-/
namespace Announcer.Json

inductive Found where
  | null
  | bool (b : Bool)
  | number (n : Number)
  | string (s : String)
  | array
  | object

/-- Why a text could not be read. The first group is about JSON itself, the
second about the shape that a reader of typed data asks for. -/
inductive Cause where
  | eofList
  | eofObject
  | eofString
  | eofValue
  | expectedColon
  | expectedListEnd
  | expectedObjectEnd
  | expectedIdent
  | expectedValue
  | invalidEscape
  | invalidNumber
  | numberOutOfRange
  | controlCharacter
  | keyNotString
  | loneSurrogate
  | unexpectedEndOfEscape
  | trailingComma
  | trailingCharacters
  | tooDeep
  | wrongType (found : Found) (expected : String)
  | wrongLength (length : Nat) (expected : String)
  | missingField (name : String)
  | duplicateField (name : String)

/-- A cause and the bytes of the text left behind its place. -/
structure Failure where
  cause : Cause
  left : Nat

def byteLength (cs : List Char) : Nat :=
  cs.foldl (fun n c => n + c.utf8Size) 0

/-- A fault at the next byte of `rest`; at the end of the text, at the end. -/
def Failure.next (cause : Cause) (rest : List Char) : Failure :=
  ⟨cause, byteLength rest - 1⟩

/-- A fault behind the first `taken` bytes of `rest`. -/
def Failure.behind (cause : Cause) (rest : List Char) (taken : Nat) : Failure :=
  ⟨cause, byteLength rest - taken⟩

/-- A place in a text: the line counts from one, the column is the number of
bytes of its line before the place. -/
structure Place where
  line : Nat
  column : Nat
  deriving DecidableEq, Repr

def Place.behind (bytes : List UInt8) : Place :=
  bytes.foldl (fun p b => if b = 10 then ⟨p.line + 1, 0⟩ else ⟨p.line, p.column + 1⟩) ⟨1, 0⟩

def Failure.place (f : Failure) (text : String) : Place :=
  let bytes := text.toUTF8.toList
  .behind (bytes.take (bytes.length - f.left))

/-- A string in quotes as a message shows it. -/
def shown (s : String) : String :=
  let one (c : Char) : List Char :=
    if c = '"' then ['\\', '"']
    else if c = '\\' then ['\\', '\\']
    else if c = '\n' then ['\\', 'n']
    else if c = '\r' then ['\\', 'r']
    else if c = '\t' then ['\\', 't']
    else if c.toNat = 0 then ['\\', '0']
    else if isVisible c then [c]
    else ['\\', 'u', '\x7b'] ++ Nat.toDigits 16 c.toNat ++ ['\x7d']
  String.ofList ('"' :: s.toList.flatMap one ++ ['"'])

def Found.text : Found → String
  | .null => "null"
  | .bool b => "boolean `" ++ (if b then "true" else "false") ++ "`"
  | .number (.integer i) => "integer `" ++ integerText i ++ "`"
  | .number (.real x) => "floating point `" ++ floatLayout.write x ++ "`"
  | .string s => "string " ++ shown s
  | .array => "sequence"
  | .object => "map"

def Cause.message : Cause → String
  | .eofList => "EOF while parsing a list"
  | .eofObject => "EOF while parsing an object"
  | .eofString => "EOF while parsing a string"
  | .eofValue => "EOF while parsing a value"
  | .expectedColon => "expected `:`"
  | .expectedListEnd => "expected `,` or `]`"
  | .expectedObjectEnd => "expected `,` or `\x7d`"
  | .expectedIdent => "expected ident"
  | .expectedValue => "expected value"
  | .invalidEscape => "invalid escape"
  | .invalidNumber => "invalid number"
  | .numberOutOfRange => "number out of range"
  | .controlCharacter => "control character (\\u0000-\\u001F) found while parsing a string"
  | .keyNotString => "key must be a string"
  | .loneSurrogate => "lone leading surrogate in hex escape"
  | .unexpectedEndOfEscape => "unexpected end of hex escape"
  | .trailingComma => "trailing comma"
  | .trailingCharacters => "trailing characters"
  | .tooDeep => "recursion limit exceeded"
  | .wrongType found expected => "invalid type: " ++ found.text ++ ", expected " ++ expected
  | .wrongLength length expected => "invalid length " ++ toString length ++ ", expected " ++ expected
  | .missingField name => "missing field `" ++ name ++ "`"
  | .duplicateField name => "duplicate field `" ++ name ++ "`"

def Failure.message (f : Failure) (text : String) : String :=
  let p := f.place text
  f.cause.message ++ " at line " ++ toString p.line ++ " column " ++ toString p.column

end Announcer.Json
