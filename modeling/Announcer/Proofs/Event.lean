import Mathlib.Algebra.GroupWithZero.Nat
import Mathlib.Data.String.Basic
import Announcer.Proofs.Config
import Announcer.Uuid
/-!
# The text of an event

An event can be built when every config of it is JSON (`exists_build_iff`). Its
size is that of its envelope, and of its endpoints as they are printed again, with a comma
between any two; the envelope itself grows with the token only.

Results: `exists_build_iff`, `size_around`, `envelopeSize_eq`.
-/
namespace Announcer

open Json (Value escape quoted)
open String (utf8Len)

/-! ## Building -/

namespace Event

/-- The event of some endpoints. -/
def around (kind : ReportKind) (token : String) (ids : EventIds) (endpoints : List Value) :
    Event where
  header := ⟨eventNamespace, kind.name, ids, payloadVersion⟩
  scope := ⟨"BearerToken", token⟩
  endpoints

variable {kind : ReportKind} {configs : List Config} {token : String} {ids : EventIds}

theorem readValue_eq_ok_iff {text : String} {v : Value} :
    readValue text = .ok v ↔ Json.parse text = .ok v := by
  unfold readValue
  cases Json.parse text <;> simp

theorem build_eq_ok_iff {e : Event} :
    Event.build kind configs token ids = .ok e ↔
      ∃ endpoints, List.Forall₂ (fun c v => Json.parse c.text = .ok v) configs endpoints ∧
        around kind token ids endpoints = e := by
  simp only [Event.build, bind_eq_ok_iff, mapM_eq_ok_iff, readValue_eq_ok_iff]
  constructor
  · rintro ⟨endpoints, h, he⟩
    cases he
    exact ⟨endpoints, h, rfl⟩
  · rintro ⟨endpoints, h, rfl⟩
    exact ⟨endpoints, h, rfl⟩

/-- The event of some configs can be built when each of them can be read. -/
theorem exists_build_iff : (∃ e, Event.build kind configs token ids = .ok e) ↔
      ∀ c ∈ configs, (Json.parse c.text).toOption.isSome = true := by
  constructor
  · rintro ⟨e, h⟩ c hc
    obtain ⟨endpoints, hall, -⟩ := build_eq_ok_iff.mp h
    obtain ⟨v, -, hv⟩ := exists_right_of_forall₂ hall c hc
    rw [hv]
    rfl
  · intro h
    obtain ⟨endpoints, hall⟩ := exists_forall₂ (R := fun c v => Json.parse c.text = .ok v)
      fun c hc => (Option.isSome_iff_exists.mp (h c hc)).imp fun v hv =>
        Json.toOption_eq_some_iff.mp hv
    exact ⟨_, build_eq_ok_iff.mpr ⟨endpoints, hall, rfl⟩⟩

/-! ## Its text -/

/-- The bytes of everything but the endpoints: those of the event without any. -/
def envelopeSize (kind : ReportKind) (token : String) (ids : EventIds) : Nat :=
  (around kind token ids []).text.utf8ByteSize

theorem utf8ByteSize_text (v : Value) : v.text.utf8ByteSize = utf8Len v.printed := by
  rw [Value.text_eq, String.utf8ByteSize_ofList]

theorem utf8Len_printedItems (items : List Value) :
    utf8Len (Value.printedItems items) =
      (items.map fun v => v.text.utf8ByteSize).sum + items.length := by
  induction items with
  | nil => rfl
  | cons v items ih =>
    have hcomma : ','.utf8Size = 1 := rfl
    rw [Value.printedItems, String.utf8Len_append, String.utf8Len_cons, ih, List.map_cons,
      List.sum_cons, List.length_cons, utf8ByteSize_text]
    omega

/-- A list is printed in two brackets, with a comma between any two items. -/
theorem utf8Len_array (items : List Value) :
    utf8Len (Value.array items).printed =
      2 + (items.map fun v => v.text.utf8ByteSize).sum + (items.length - 1) := by
  cases items with
  | nil => rfl
  | cons v items =>
    have hopen : '['.utf8Size = 1 := rfl
    have hclose : utf8Len [']'] = 1 := rfl
    rw [Value.printed, String.utf8Len_append, String.utf8Len_append, String.utf8Len_cons,
      utf8Len_printedItems, List.map_cons, List.sum_cons, List.length_cons, utf8ByteSize_text]
    omega

/-- The header of an event as a value. -/
def headerValue (kind : ReportKind) (ids : EventIds) : Value :=
  .object [("namespace", .string eventNamespace), ("name", .string kind.name),
    ("messageId", .string ids.message), ("eventCorrelationToken", .string ids.correlation),
    ("payloadVersion", .string payloadVersion)]

/-- The scope of an event as a value. -/
def scopeValue (token : String) : Value :=
  .object [("type", .string "BearerToken"), ("token", .string token)]

/-- What is printed in front of the endpoints. -/
def front (kind : ReportKind) (token : String) (ids : EventIds) : List Char :=
  '\x7b' :: quoted "event" ++ ':' :: '\x7b' :: quoted "header" ++ ':' ::
    (headerValue kind ids).printed ++ ',' :: quoted "payload" ++ ':' :: '\x7b' ::
      quoted "scope" ++ ':' :: (scopeValue token).printed ++ ',' :: quoted "endpoints" ++ [':']

theorem printed_around (kind : ReportKind) (token : String) (ids : EventIds)
    (endpoints : List Value) : (around kind token ids endpoints).value.printed =
      front kind token ids ++ ((Value.array endpoints).printed ++ ['\x7d', '\x7d', '\x7d']) := by
  have hvalue : (around kind token ids endpoints).value = .object [("event", .object [
      ("header", headerValue kind ids), ("payload", .object [
        ("scope", scopeValue token), ("endpoints", .array endpoints)])])] := rfl
  rw [hvalue, front]
  simp only [Value.printed, Value.printedMembers, List.append_assoc, List.cons_append,
    List.nil_append, List.append_nil]

theorem size_around (kind : ReportKind) (token : String) (ids : EventIds)
    (endpoints : List Value) :
    (around kind token ids endpoints).text.utf8ByteSize = envelopeSize kind token ids +
      (endpoints.map fun v => v.text.utf8ByteSize).sum + (endpoints.length - 1) := by
  have hempty : utf8Len (Value.array []).printed = 2 := rfl
  unfold envelopeSize text
  rw [utf8ByteSize_text, utf8ByteSize_text, printed_around, printed_around]
  simp only [String.utf8Len_append, utf8Len_array endpoints, hempty]
  omega

/-! ## The envelope -/

/-- The character stands for itself in a string, and is one byte. -/
def Plain (c : Char) : Prop := escape c = [c] ∧ c.utf8Size = 1

theorem utf8Len_quoted_of_plain {s : String} (h : ∀ c ∈ s.toList, Plain c) :
    utf8Len (quoted s) = s.toList.length + 2 := by
  have hall : ∀ cs : List Char, (∀ c ∈ cs, Plain c) → utf8Len (cs.flatMap escape) = cs.length := by
    intro cs
    induction cs with
    | nil => intro _; rfl
    | cons c cs ih =>
      intro h
      obtain ⟨hescape, hsize⟩ := h c List.mem_cons_self
      rw [List.flatMap_cons, hescape, String.utf8Len_append, ih fun d hd => h d
        (List.mem_cons_of_mem c hd), String.utf8Len_cons, String.utf8Len_nil, hsize,
        List.length_cons]
      omega
  have hquote : '"'.utf8Size = 1 := rfl
  rw [quoted, String.utf8Len_append, String.utf8Len_cons, hall _ h, hquote]
  rfl

theorem escape_eq_self {c : Char} (hlow : 0x20 ≤ c.toNat) (hquote : c.toNat ≠ 0x22)
    (hslash : c.toNat ≠ 0x5C) : escape c = [c] := by
  unfold escape
  rw [if_neg, if_neg, if_pos hlow]
  · rintro rfl
    exact hslash rfl
  · rintro rfl
    exact hquote rfl

theorem plain_of_range {c : Char} (hlow : 0x20 ≤ c.toNat) (hhigh : c.toNat < 0x80)
    (hquote : c.toNat ≠ 0x22) (hslash : c.toNat ≠ 0x5C) : Plain c := by
  refine ⟨escape_eq_self hlow hquote hslash, ?_⟩
  have hval : c.val.toNat ≤ 0x7F := Nat.le_of_lt_succ hhigh
  unfold Char.utf8Size
  rw [if_pos (UInt32.le_iff_toNat_le.mpr hval)]

theorem plain_of_hex {c : Char} (h : Uuid.isHexDigit c = true) : Plain c := by
  have hrange : 0x30 ≤ c.toNat ∧ c.toNat ≤ 0x39 ∨ 0x61 ≤ c.toNat ∧ c.toNat ≤ 0x66 := by
    simp only [Uuid.isHexDigit, Bool.or_eq_true, Bool.and_eq_true, decide_eq_true_eq,
      Char.isDigit_iff_toNat] at h
    exact h
  apply plain_of_range <;> omega

theorem plain_of_version4 {s : String} (h : Uuid.isVersion4 s = true) :
    s.toList.length = 36 ∧ ∀ c ∈ s.toList, Plain c := by
  simp only [Uuid.isVersion4, Bool.and_eq_true, decide_eq_true_eq, List.all_eq_true] at h
  refine ⟨h.1, fun c hc => ?_⟩
  obtain ⟨i, hi, rfl⟩ := List.getElem_of_mem hc
  have hthere := h.2 (s.toList[i], i) (List.mem_zipIdx_iff_getElem?.mpr (by simp [hi]))
  simp only at hthere
  split at hthere
  · rw [decide_eq_true_eq.mp hthere]
    exact plain_of_range (by decide) (by decide) (by decide) (by decide)
  · split at hthere
    · rw [decide_eq_true_eq.mp hthere]
      exact plain_of_hex (by decide)
    · split at hthere
      · have hall : "89ab".toList.all Uuid.isHexDigit = true := by decide
        exact plain_of_hex (List.all_eq_true.mp hall _ (List.contains_iff_mem.mp hthere))
      · exact plain_of_hex hthere

theorem utf8Len_quoted_uuid {s : String} (h : Uuid.isVersion4 s = true) :
    utf8Len (quoted s) = 38 := by
  obtain ⟨hlength, hplain⟩ := plain_of_version4 h
  rw [utf8Len_quoted_of_plain hplain, hlength]

/-- The envelope of an event with two fresh identifiers. -/
theorem envelopeSize_eq (kind : ReportKind) (token : String) {ids : EventIds}
    (hm : Uuid.isVersion4 ids.message = true) (hc : Uuid.isVersion4 ids.correlation = true) :
    envelopeSize kind token ids = 262 + utf8Len (quoted kind.name) + utf8Len (quoted token) := by
  have hempty : (Value.array []).printed = ['[', ']'] := rfl
  unfold envelopeSize text
  rw [utf8ByteSize_text, printed_around, front, headerValue, scopeValue, hempty]
  simp only [Value.printed, Value.printedMembers, String.utf8Len_append, String.utf8Len_cons,
    String.utf8Len_nil, utf8Len_quoted_uuid hm, utf8Len_quoted_uuid hc,
    show '\x7b'.utf8Size = 1 from rfl, show '\x7d'.utf8Size = 1 from rfl,
    show ':'.utf8Size = 1 from rfl, show ','.utf8Size = 1 from rfl,
    show '['.utf8Size = 1 from rfl, show ']'.utf8Size = 1 from rfl,
    show utf8Len (quoted "event") = 7 from rfl, show utf8Len (quoted "header") = 8 from rfl,
    show utf8Len (quoted "namespace") = 11 from rfl,
    show utf8Len (quoted eventNamespace) = 17 from rfl,
    show utf8Len (quoted "name") = 6 from rfl, show utf8Len (quoted "messageId") = 11 from rfl,
    show utf8Len (quoted "eventCorrelationToken") = 23 from rfl,
    show utf8Len (quoted "payloadVersion") = 16 from rfl,
    show utf8Len (quoted payloadVersion) = 3 from rfl,
    show utf8Len (quoted "payload") = 9 from rfl, show utf8Len (quoted "scope") = 7 from rfl,
    show utf8Len (quoted "type") = 6 from rfl,
    show utf8Len (quoted "BearerToken") = 13 from rfl,
    show utf8Len (quoted "token") = 7 from rfl, show utf8Len (quoted "endpoints") = 11 from rfl]
  omega

end Event

end Announcer
