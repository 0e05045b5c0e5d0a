import Announcer.Json.Printer
/-!
# The characters of printed JSON

The printer pushes characters behind an output. `Value.printed` is the list of
the characters that it pushes, so that a proof about printed text is one about
lists: `toList_text`. Items and members behind the first are printed
behind a comma each, which is how the reader takes them apart again.

Results: `toList_text`, `toList_quote`, `text_array`, `text_object`.
-/
namespace Announcer.Json

/-! ## Strings -/

/-- The characters of a quoted string. -/
def quoted (s : String) : List Char := '"' :: s.toList.flatMap escape ++ ['"']

theorem toList_foldl_push (cs : List Char) (out : String) :
    (cs.foldl String.push out).toList = out.toList ++ cs := by
  induction cs generalizing out with
  | nil => simp
  | cons c cs ih => simp [ih]

theorem toList_foldl_escape (cs : List Char) (out : String) :
    (cs.foldl (fun out c => (escape c).foldl String.push out) out).toList =
      out.toList ++ cs.flatMap escape := by
  induction cs generalizing out with
  | nil => simp
  | cons c cs ih => simp [ih, toList_foldl_push]

@[simp] theorem toList_quoteTo (out s : String) :
    (quoteTo out s).toList = out.toList ++ quoted s := by
  simp [quoteTo, quoted, toList_foldl_escape]

theorem toList_quote (s : String) : (quote s).toList = quoted s := by
  simp [quote]

/-! ## Values -/

namespace Value

mutual

/-- The characters of a printed value. -/
def printed : Value → List Char
  | .null => ['n', 'u', 'l', 'l']
  | .bool true => ['t', 'r', 'u', 'e']
  | .bool false => ['f', 'a', 'l', 's', 'e']
  | .number n => n.text.toList
  | .string s => quoted s
  | .array [] => ['[', ']']
  | .array (v :: rest) => '[' :: v.printed ++ printedItems rest ++ [']']
  | .object [] => ['\x7b', '\x7d']
  | .object ((k, v) :: rest) =>
    '\x7b' :: quoted k ++ ':' :: v.printed ++ printedMembers rest ++ ['\x7d']

/-- The characters of the items behind the first, each behind a comma. -/
def printedItems : List Value → List Char
  | [] => []
  | v :: rest => ',' :: v.printed ++ printedItems rest

/-- The characters of the members behind the first, each behind a comma. -/
def printedMembers : List (String × Value) → List Char
  | [] => []
  | (k, v) :: rest => ',' :: quoted k ++ ':' :: v.printed ++ printedMembers rest

end

mutual

theorem toList_writeTo (out : String) (v : Value) :
    (v.writeTo out).toList = out.toList ++ v.printed := by
  match v with
  | .null => simp [writeTo, printed]
  | .bool true => simp [writeTo, printed]
  | .bool false => simp [writeTo, printed]
  | .number n => simp [writeTo, printed]
  | .string s => simp [writeTo, printed]
  | .array [] => simp [writeTo, writeItems, printed]
  | .array (v :: rest) =>
    simp [writeTo, writeItems, printed, toList_writeItems _ rest, toList_writeTo _ v]
  | .object [] => simp [writeTo, writeMembers, printed]
  | .object ((k, v) :: rest) =>
    simp [writeTo, writeMembers, printed, toList_writeMembers _ rest, toList_writeTo _ v]

theorem toList_writeItems (out : String) (items : List Value) :
    (writeItems "," out items).toList = out.toList ++ printedItems items := by
  match items with
  | [] => simp [writeItems, printedItems]
  | v :: rest => simp [writeItems, printedItems, toList_writeItems _ rest, toList_writeTo _ v]

theorem toList_writeMembers (out : String) (members : List (String × Value)) :
    (writeMembers "," out members).toList = out.toList ++ printedMembers members := by
  match members with
  | [] => simp [writeMembers, printedMembers]
  | (k, v) :: rest =>
    simp [writeMembers, printedMembers, toList_writeMembers _ rest, toList_writeTo _ v]

end

theorem toList_text (v : Value) : v.text.toList = v.printed := by
  simp [text, toList_writeTo]

theorem text_eq (v : Value) : v.text = String.ofList v.printed := by
  rw [← toList_text, String.ofList_toList]

/-! ## Joined by commas -/

theorem intercalate_comma (cs : List Char) (l : List (List Char)) :
    [','].intercalate (cs :: l) = cs ++ l.flatMap (',' :: ·) := by
  induction l generalizing cs with
  | nil => simp
  | cons ds l ih => rw [List.intercalate_cons_cons, ih]; simp

theorem printedItems_eq_flatMap (items : List Value) :
    printedItems items = (items.map printed).flatMap (',' :: ·) := by
  induction items with
  | nil => rfl
  | cons v items ih => simp [printedItems, ih]

theorem printedMembers_eq_flatMap (members : List (String × Value)) :
    printedMembers members =
      (members.map fun e => quoted e.1 ++ ':' :: e.2.printed).flatMap (',' :: ·) := by
  induction members with
  | nil => rfl
  | cons e members ih => simp [printedMembers, ih]

theorem toList_intercalate_map {α : Type} {f : α → String} {g : α → List Char}
    (h : ∀ x, (f x).toList = g x) (l : List α) :
    (",".intercalate (l.map f)).toList = [','].intercalate (l.map g) := by
  rw [String.toList_intercalate, List.map_map]
  exact congrArg _ (List.map_congr_left fun x _ => h x)

/-- An array is printed as the texts of its items, with a comma between any two. -/
theorem text_array (items : List Value) :
    (Value.array items).text = "[" ++ ",".intercalate (items.map text) ++ "]" := by
  refine String.toList_inj.mp ?_
  rw [String.toList_append, String.toList_append, toList_intercalate_map toList_text, toList_text]
  cases items with
  | nil => rfl
  | cons v items =>
    rw [List.map_cons, intercalate_comma, ← printedItems_eq_flatMap, printed]
    rfl

/-- An object is printed as the texts of its members, with a comma between any two. -/
theorem text_object (members : List (String × Value)) :
    (Value.object members).text = "\x7b" ++
      ",".intercalate (members.map fun e => quote e.1 ++ ":" ++ e.2.text) ++ "\x7d" := by
  have hmember : ∀ e : String × Value,
      (quote e.1 ++ ":" ++ e.2.text).toList = quoted e.1 ++ ':' :: e.2.printed := by
    intro e
    rw [String.toList_append, String.toList_append, toList_quote, toList_text, List.append_assoc]
    rfl
  refine String.toList_inj.mp ?_
  rw [String.toList_append, String.toList_append, toList_intercalate_map hmember, toList_text]
  cases members with
  | nil => rfl
  | cons e members =>
    rw [List.map_cons, intercalate_comma, ← printedMembers_eq_flatMap, printed]
    simp

end Value

end Announcer.Json
