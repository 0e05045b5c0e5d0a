import Mathlib.Data.List.Forall2
import Announcer.Json.Decode
import Announcer.Proofs.Json.Reader
/-!
# Reading printed data

A record that was printed as an object is read back when each of its members is
read back by the field of its name. The members may come in any order, and each
comes once.

Results: `finds_record`, `finds_listOf_any`.
-/
namespace Announcer.Json.Decode

variable {σ α : Type} {budget depth : Nat}

/-! ## Strings and lists -/

theorem finds_string (s : String) : Finds (string budget depth) (quoted s) (some s) := by
  intro rest _
  have hquote : quoted s ++ rest = '"' :: (s.toList.flatMap escape ++ '"' :: rest) := by
    simp [quoted]
  rw [hquote, string, skipBlanks_begins (by decide)]
  exact congrArg Except.toOption (stringTail_quoted s rest)

theorem finds_field {name : String} {d : Decoder α} {put : α → σ → σ} {cs : List Char} {x : α}
    (h : Finds (d budget depth) cs (some x)) :
    Finds ((field name d put).read budget depth) cs (some (put x)) := by
  intro rest hrest
  show ((d budget depth (cs ++ rest)).map fun r => (put r.1, r.2)).toOption = _
  rw [toOption_map, h rest hrest]
  rfl

/-- A list of values that are read back as they were is read back as it was. -/
theorem finds_listOf_any {items : List Value} (hv : ∀ v ∈ items, v.Ordered)
    (hfit : ∀ v ∈ items, v.Fits Number.Stable depth)
    (hb : (Value.array items).printed.length ≤ budget) :
    Finds (listOf any budget (depth + 1)) (Value.array items).printed (some items) := by
  intro rest hrest
  obtain ⟨tail, htail⟩ : ∃ tail, (Value.array items).printed = '[' :: tail := by
    cases items <;> exact ⟨_, rfl⟩
  have hread := finds_value budget (depth + 1) (.array items) (Value.ordered_array.mpr hv) hb
    rest hrest
  rw [Value.reread?_of_stable (Value.fits_array_succ.mpr hfit), htail, List.cons_append,
    value_bracket, toOption_map] at hread
  rw [htail, List.cons_append]
  show (list (value budget depth) budget (tail ++ rest)).toOption = _
  obtain ⟨⟨l, rest'⟩, hlist, hr⟩ := Option.map_eq_some_iff.mp hread
  cases hr
  exact hlist

/-! ## Records -/

variable {fields : List (Field σ)}

/-- The field of a member's name reads the member, and puts it into the record so. -/
def Takes (budget depth : Nat) (fields : List (Field σ)) (m : String × Value) (put : σ → σ) :
    Prop :=
  ∃ f, fields.find? (fun f => f.name = m.1) = some f ∧
    Finds (f.read budget depth) m.2.printed (some put)

theorem toOption_recordMember {m : String × Value} {put : σ → σ}
    (h : Takes budget depth fields m put) (acc : σ) {seen : List String} (hseen : m.1 ∉ seen)
    {rest : List Char} (hrest : Ends rest) :
    (recordMember budget depth fields (acc, seen) m.1 (':' :: (m.2.printed ++ rest))).toOption =
      some ((put acc, m.1 :: seen), rest) := by
  obtain ⟨f, hf, hread⟩ := h
  have hcolon : colon (':' :: (m.2.printed ++ rest)) = .ok ((), m.2.printed ++ rest) := rfl
  rw [recordMember, hf]
  simp only
  rw [if_neg (by simpa using hseen), hcolon]
  simp only
  rw [toOption_map, hread rest hrest]
  rfl

theorem membersTail_recordMember {ms : List (String × Value)} {puts : List (σ → σ)}
    (h : List.Forall₂ (Takes budget depth fields) ms puts) (hnodup : (ms.map Prod.fst).Nodup)
    {n : Nat} (hn : ms.length < n) (acc : σ) {seen : List String}
    (hseen : ∀ k ∈ ms.map Prod.fst, k ∉ seen) (rest : List Char) :
    (membersTail (recordMember budget depth fields) n (acc, seen)
        (Value.printedMembers ms ++ '\x7d' :: rest)).toOption =
      some ((puts.foldl (fun acc put => put acc) acc, (ms.map Prod.fst).reverse ++ seen),
        rest) := by
  induction h generalizing n acc seen with
  | nil =>
    obtain ⟨n, rfl⟩ := Nat.exists_eq_add_of_lt hn
    rfl
  | @cons m put ms puts hm _ ih =>
    obtain ⟨n, rfl⟩ := Nat.exists_eq_add_of_lt hn
    obtain ⟨hfirst, hnodup⟩ := List.nodup_cons.mp hnodup
    obtain ⟨hnew, hrests⟩ := List.forall_mem_cons.mp hseen
    have hroom : ms.length < (m :: ms).length + n := by simp; omega
    have hnotseen : ∀ k ∈ ms.map Prod.fst, k ∉ m.1 :: seen := by
      intro k hk hmem
      rcases List.mem_cons.mp hmem with rfl | hmem
      · exact hfirst hk
      · exact hrests k hk hmem
    have hread := toOption_recordMember hm acc hnew (ends_printedMembers ms rest)
    simp only [Value.printedMembers, List.cons_append, List.append_assoc]
    rw [toOption_membersTail, hread, Option.bind_some, ih hnodup hroom _ hnotseen]
    simp

theorem record_brace (name : String) (blank : σ) (rest : List Char) :
    record name fields blank budget (depth + 1) ('\x7b' :: rest) =
      match members (recordMember budget depth fields) budget (blank, []) rest with
      | .error e => .error e
      | .ok ((acc, seen), rest) =>
        match fields.find? (fun f => !f.optional && !seen.contains f.name) with
        | some f => .error (.behind (.missingField f.name) rest 0)
        | none => .ok (acc, rest) := rfl

/-- A record that is printed as an object is read back, from members that the fields take. -/
theorem finds_record {name : String} {blank x : σ} {ms : List (String × Value)}
    (puts : List (σ → σ)) (h : List.Forall₂ (Takes budget depth fields) ms puts)
    (hx : puts.foldl (fun acc put => put acc) blank = x) (hne : ms ≠ [])
    (hnodup : (ms.map Prod.fst).Nodup) (hroom : ms.length ≤ budget)
    (hall : ∀ f ∈ fields, f.optional = true ∨ f.name ∈ ms.map Prod.fst) :
    Finds (record name fields blank budget (depth + 1)) (Value.object ms).printed (some x) := by
  subst hx
  intro rest _
  cases h with
  | nil => exact absurd rfl hne
  | @cons m put ms puts hm hrests =>
    obtain ⟨hfirst, hnodup⟩ := List.nodup_cons.mp hnodup
    have hnotseen : ∀ k ∈ ms.map Prod.fst, k ∉ [m.1] := by
      intro k hk hmem
      exact hfirst (List.mem_singleton.mp hmem ▸ hk)
    have hread : (members (recordMember budget depth fields) budget (blank, [])
        (quoted m.1 ++ ':' :: (m.2.printed ++
          (Value.printedMembers ms ++ '\x7d' :: rest)))).toOption =
        some ((puts.foldl (fun acc put => put acc) (put blank),
          (ms.map Prod.fst).reverse ++ [m.1]), rest) := by
      rw [toOption_members, toOption_recordMember hm blank List.not_mem_nil
        (ends_printedMembers ms rest), Option.bind_some,
        membersTail_recordMember hrests hnodup hroom _ hnotseen]
    have hfound : fields.find? (fun f => !f.optional &&
        !((ms.map Prod.fst).reverse ++ [m.1]).contains f.name) = none := by
      refine List.find?_eq_none.mpr fun f hf => ?_
      rcases hall f hf with hopt | hmem
      · simp [hopt]
      · rcases List.mem_cons.mp hmem with heq | hmem
        · simp [heq]
        · simp [List.mem_map.mp hmem]
    simp only [Value.printed, List.cons_append, List.append_assoc, List.nil_append]
    rw [record_brace, toOption_eq_some_iff.mp hread]
    simp only [hfound]
    rfl

end Announcer.Json.Decode
