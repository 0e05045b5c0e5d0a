import Announcer.Proofs.Json.Reread
import Announcer.Proofs.Json.Strings
/-!
# The reader on printed JSON

The reader agrees with `Value.reread?` as long as the members of every object ascend, which
they do in all that the reader and the canonical form produce. Its lists
and members are read in one step each (`toOption_list`, `toOption_members`), and a value
ends where the reader stops, whatever it is that ends it.

Results: `finds_value`, `parse_text`, `parse_text_of_stable`.
-/
namespace Announcer.Json

theorem toOption_map {ε α β : Type} (f : α → β) (e : Except ε α) :
    (e.map f).toOption = e.toOption.map f := by
  cases e <;> rfl

theorem toOption_eq_some_iff {ε α : Type} {e : Except ε α} {x : α} :
    e.toOption = some x ↔ e = .ok x := by
  cases e <;> simp [Except.toOption]

/-! ## The first character -/

/-- `c` can be the first character of a value: no blank, and not the end of a list. -/
abbrev Begins (c : Char) : Prop := isBlank c = false ∧ c ≠ ']'

theorem begins_digit {c : Char} (hc : c.isDigit = true) : Begins c := by
  have hne : ∀ d : Char, d.isDigit = false → c ≠ d := by
    rintro d hd rfl
    simp [hc] at hd
  refine ⟨?_, hne ']' (by decide)⟩
  simp [isBlank, hne ' ' (by decide), hne '\t' (by decide), hne '\n' (by decide),
    hne '\r' (by decide)]

theorem skipBlanks_begins {c : Char} (h : Begins c) (rest : List Char) :
    skipBlanks (c :: rest) = c :: rest := by
  simp [skipBlanks, h.1]

theorem NumberText.begins {cs : List Char} (h : NumberText cs) :
    ∃ c rest, cs = c :: rest ∧ Begins c := by
  cases h with
  | numeral h =>
    obtain ⟨c, rest, rfl, hc⟩ := numeral_head h
    exact ⟨c, rest, rfl, begins_digit hc⟩
  | negative h => exact ⟨'-', _, rfl, by decide⟩
  | nan => exact ⟨'N', _, rfl, by decide⟩
  | infinity => exact ⟨'i', _, rfl, by decide⟩
  | negativeInfinity => exact ⟨'-', _, rfl, by decide⟩

theorem Value.begins (v : Value) : ∃ c rest, v.printed = c :: rest ∧ Begins c := by
  cases v with
  | null => exact ⟨'n', _, rfl, by decide⟩
  | bool b =>
    cases b with
    | true => exact ⟨'t', _, rfl, by decide⟩
    | false => exact ⟨'f', _, rfl, by decide⟩
  | number n => exact (numberText n).begins
  | string s => exact ⟨'"', _, rfl, by decide⟩
  | array items => cases items <;> exact ⟨'[', _, rfl, by decide⟩
  | object members => cases members <;> exact ⟨'\x7b', _, rfl, by decide⟩

/-! ## One step of the reader -/

section Steps
variable (budget depth : Nat)

theorem value_digit {c : Char} (rest : List Char) (hc : c.isDigit = true) :
    value budget depth (c :: rest) =
      (number true (c :: rest)).map fun r => (.number r.1, r.2) := by
  have hne : ∀ d : Char, d.isDigit = false → c ≠ d := by
    rintro d hd rfl
    simp [hc] at hd
  unfold value
  rw [skipBlanks_begins (begins_digit hc)]
  split
  case h_9 h =>
    cases h
    rw [if_pos hc]
  all_goals
    rename_i h
    simp only [List.cons.injEq, reduceCtorEq] at h
  all_goals exact absurd h.1 (hne _ (by decide))

theorem value_null (rest : List Char) :
    value budget depth ('n' :: 'u' :: 'l' :: 'l' :: rest) = .ok (.null, rest) := by
  cases depth <;> rfl

theorem value_true (rest : List Char) :
    value budget depth ('t' :: 'r' :: 'u' :: 'e' :: rest) = .ok (.bool true, rest) := by
  cases depth <;> rfl

theorem value_false (rest : List Char) :
    value budget depth ('f' :: 'a' :: 'l' :: 's' :: 'e' :: rest) = .ok (.bool false, rest) := by
  cases depth <;> rfl

theorem value_minus (rest : List Char) :
    value budget depth ('-' :: rest) =
      (number false rest).map fun r => (.number r.1, r.2) := by
  cases depth <;> rfl

theorem value_quoted (s : String) (rest : List Char) :
    value budget depth (quoted s ++ rest) = .ok (.string s, rest) := by
  have h : quoted s ++ rest = '"' :: (s.toList.flatMap escape ++ '"' :: rest) := by simp [quoted]
  rw [h]
  unfold value
  show (stringTail [] _).map _ = _
  rw [stringTail_quoted]
  rfl

theorem value_bracket_zero (rest : List Char) :
    (value budget 0 ('[' :: rest)).toOption = none := rfl

theorem value_bracket (rest : List Char) :
    value budget (depth + 1) ('[' :: rest) =
      (list (value budget depth) budget rest).map fun r => (.array r.1, r.2) := rfl

/-- Reads a member behind its key. -/
def readMember (item : List Char → Reading Value) (acc : List (String × Value)) (k : String)
    (cs : List Char) : Reading (List (String × Value)) :=
  match colon cs with
  | .error e => .error e
  | .ok ((), cs) => (item cs).map fun r => (Entries.insert k r.1 acc, r.2)

theorem value_brace_zero (rest : List Char) :
    (value budget 0 ('\x7b' :: rest)).toOption = none := rfl

theorem value_brace (rest : List Char) :
    value budget (depth + 1) ('\x7b' :: rest) =
      (members (readMember (value budget depth)) budget [] rest).map
        fun r => (.object r.1, r.2) := rfl

end Steps

section Lists
variable {α : Type} (item : List Char → Reading α) (n : Nat) (acc : List α)

theorem list_closed (rest : List Char) : list item n (']' :: rest) = .ok ([], rest) := rfl

theorem toOption_list {c : Char} (hc : Begins c) (rest : List Char) :
    (list item n (c :: rest)).toOption =
      (item (c :: rest)).toOption.bind fun r => (listTail item n [r.1] r.2).toOption := by
  unfold list
  rw [skipBlanks_begins hc]
  split
  · contradiction
  · next h =>
    cases h
    exact absurd rfl hc.2
  · cases item (c :: rest) <;> rfl

theorem listTail_closed (rest : List Char) :
    listTail item (n + 1) acc (']' :: rest) = .ok (acc.reverse, rest) := rfl

theorem toOption_listTail {c : Char} (hc : Begins c) (rest : List Char) :
    (listTail item (n + 1) acc (',' :: c :: rest)).toOption =
      (item (c :: rest)).toOption.bind fun r => (listTail item n (r.1 :: acc) r.2).toOption := by
  rw [listTail, skipBlanks_begins (by decide)]
  simp only
  rw [skipBlanks_begins hc]
  split
  · contradiction
  · next h =>
    cases h
    exact absurd rfl hc.2
  · cases item (c :: rest) <;> rfl

end Lists

section Members
variable {σ : Type} (member : σ → String → List Char → Reading σ) (n : Nat) (acc : σ)

theorem keyed_quoted (k : String) (rest : List Char) :
    keyed member acc (k.toList.flatMap escape ++ '"' :: rest) = member acc k rest := by
  rw [keyed, stringTail_quoted]

theorem members_closed (rest : List Char) :
    members member n acc ('\x7d' :: rest) = .ok (acc, rest) := rfl

theorem toOption_members (k : String) (rest : List Char) :
    (members member n acc (quoted k ++ rest)).toOption =
      (member acc k rest).toOption.bind fun r => (membersTail member n r.1 r.2).toOption := by
  have hquote : quoted k ++ rest = '"' :: (k.toList.flatMap escape ++ '"' :: rest) := by
    simp [quoted]
  rw [hquote, members, skipBlanks_begins (by decide)]
  simp only [keyed_quoted]
  cases member acc k rest <;> rfl

theorem membersTail_closed (rest : List Char) :
    membersTail member (n + 1) acc ('\x7d' :: rest) = .ok (acc, rest) := rfl

theorem toOption_membersTail (k : String) (rest : List Char) :
    (membersTail member (n + 1) acc (',' :: (quoted k ++ rest))).toOption =
      (member acc k rest).toOption.bind fun r => (membersTail member n r.1 r.2).toOption := by
  have hquote : quoted k ++ rest = '"' :: (k.toList.flatMap escape ++ '"' :: rest) := by
    simp [quoted]
  rw [hquote, membersTail, skipBlanks_begins (by decide)]
  simp only
  rw [skipBlanks_begins (by decide)]
  simp only [keyed_quoted]
  cases member acc k rest <;> rfl

end Members

theorem toOption_readMember (item : List Char → Reading Value) (acc : List (String × Value))
    (k : String) (cs : List Char) :
    (readMember item acc k (':' :: cs)).toOption =
      (item cs).toOption.map fun r => (Entries.insert k r.1 acc, r.2) := by
  have hcolon : colon (':' :: cs) = .ok ((), cs) := rfl
  rw [readMember, hcolon]
  exact toOption_map _ _

/-! ## The reader on a printed value -/

theorem ends_printedItems (items : List Value) (rest : List Char) :
    Ends (Value.printedItems items ++ ']' :: rest) := by
  cases items <;> simp [Value.printedItems, ends_cons]

theorem ends_printedMembers (l : List (String × Value)) (rest : List Char) :
    Ends (Value.printedMembers l ++ '\x7d' :: rest) := by
  rcases l with _ | ⟨⟨k, v⟩, l⟩ <;> simp [Value.printedMembers, ends_cons]

theorem length_le_printedItems (items : List Value) :
    items.length ≤ (Value.printedItems items).length := by
  induction items with
  | nil => simp
  | cons v items ih =>
    simp only [Value.printedItems, List.length_append, List.length_cons]
    omega

theorem length_le_printedMembers (l : List (String × Value)) :
    l.length ≤ (Value.printedMembers l).length := by
  induction l with
  | nil => simp
  | cons e l ih =>
    simp only [Value.printedMembers, List.length_append, List.length_cons]
    omega

section Parts
variable {budget depth : Nat}

theorem finds_empty_array :
    Finds (value budget (depth + 1)) (Value.array []).printed (some (.array [])) := by
  intro rest _
  show (value budget (depth + 1) ('[' :: ']' :: rest)).toOption = _
  rw [value_bracket, list_closed]
  rfl

theorem finds_empty_object :
    Finds (value budget (depth + 1)) (Value.object []).printed (some (.object [])) := by
  intro rest _
  show (value budget (depth + 1) ('\x7b' :: '\x7d' :: rest)).toOption = _
  rw [value_brace, members_closed]
  rfl

/-- `listTail` reads the items behind the first, with room for so many of them. -/
def FindsItems (budget depth : Nat) (items : List Value) : Prop :=
  ∀ n acc rest, items.length < n →
    (listTail (value budget depth) n acc (Value.printedItems items ++ ']' :: rest)).toOption =
      (Value.rereadItems? depth items).map fun l => (acc.reverse ++ l, rest)

/-- `membersTail` reads the members behind those of `acc`, whose keys are smaller. -/
def FindsMembers (budget depth : Nat) (l : List (String × Value)) : Prop :=
  ∀ n acc rest, l.length < n → (∀ a ∈ acc, ∀ e ∈ l, a.1 < e.1) →
    (membersTail (readMember (value budget depth)) n acc
        (Value.printedMembers l ++ '\x7d' :: rest)).toOption =
      (Value.rereadMembers? depth l).map fun l => (acc ++ l, rest)

theorem findsItems_nil : FindsItems budget depth [] := by
  intro n acc rest hn
  obtain ⟨n, rfl⟩ := Nat.exists_eq_add_of_lt hn
  show (listTail _ _ _ (']' :: rest)).toOption = _
  rw [listTail_closed, Value.rereadItems?]
  simp [Except.toOption]

theorem findsItems_cons {v : Value} {items : List Value}
    (hv : Finds (value budget depth) v.printed (v.reread? depth))
    (hitems : FindsItems budget depth items) : FindsItems budget depth (v :: items) := by
  intro n acc rest hn
  obtain ⟨n, rfl⟩ := Nat.exists_eq_add_of_lt hn
  have hroom : items.length < (v :: items).length + n := by simp; omega
  obtain ⟨c, tail, hc, hbegins⟩ := v.begins
  have hfirst := hv (Value.printedItems items ++ ']' :: rest) (ends_printedItems items rest)
  rw [hc, List.cons_append] at hfirst
  rw [Value.printedItems, Value.rereadItems?, List.append_assoc, hc, List.cons_append,
    List.cons_append, toOption_listTail _ _ _ hbegins, hfirst]
  cases v.reread? depth with
  | none => rfl
  | some w =>
    simp only [Option.map_some, Option.bind_some, hitems _ _ rest hroom]
    cases Value.rereadItems? depth items <;> simp

theorem finds_array {v : Value} {items : List Value} (hroom : items.length < budget)
    (hv : Finds (value budget depth) v.printed (v.reread? depth))
    (hitems : FindsItems budget depth items) :
    Finds (value budget (depth + 1)) (Value.array (v :: items)).printed
      ((Value.array (v :: items)).reread? (depth + 1)) := by
  intro rest _
  obtain ⟨c, tail, hc, hbegins⟩ := v.begins
  have hfirst := hv (Value.printedItems items ++ ']' :: rest) (ends_printedItems items rest)
  rw [hc, List.cons_append] at hfirst
  simp only [Value.printed, List.cons_append, List.append_assoc, List.nil_append, hc]
  rw [value_bracket, toOption_map, toOption_list _ _ hbegins, hfirst, Value.reread?,
    Value.rereadItems?]
  cases v.reread? depth with
  | none => rfl
  | some w =>
    simp only [Option.map_some, Option.bind_some, hitems _ _ rest hroom]
    cases Value.rereadItems? depth items <;> simp

theorem findsMembers_nil : FindsMembers budget depth [] := by
  intro n acc rest hn _
  obtain ⟨n, rfl⟩ := Nat.exists_eq_add_of_lt hn
  show (membersTail _ _ _ ('\x7d' :: rest)).toOption = _
  rw [membersTail_closed, Value.rereadMembers?]
  simp [Except.toOption]

theorem findsMembers_cons {k : String} {v : Value} {l : List (String × Value)}
    (hl : Entries.Ascending ((k, v) :: l))
    (hv : Finds (value budget depth) v.printed (v.reread? depth))
    (hmembers : FindsMembers budget depth l) : FindsMembers budget depth ((k, v) :: l) := by
  intro n acc rest hn hacc
  obtain ⟨n, rfl⟩ := Nat.exists_eq_add_of_lt hn
  have hroom : l.length < ((k, v) :: l).length + n := by simp; omega
  have hlast : ∀ a ∈ acc, a.1 < k := fun a ha => hacc a ha (k, v) List.mem_cons_self
  have hbelow : ∀ w : Value, ∀ a ∈ acc ++ [(k, w)], ∀ e ∈ l, a.1 < e.1 := by
    intro w a ha e he
    rcases List.mem_append.mp ha with ha | ha
    · exact hacc a ha e (List.mem_cons_of_mem _ he)
    · rw [List.mem_singleton.mp ha]
      exact (List.pairwise_cons.mp hl).1 e he
  have hfirst := hv (Value.printedMembers l ++ '\x7d' :: rest) (ends_printedMembers l rest)
  simp only [Value.printedMembers, List.cons_append, List.append_assoc]
  rw [toOption_membersTail, toOption_readMember, hfirst, Value.rereadMembers?]
  cases v.reread? depth with
  | none => rfl
  | some w =>
    simp only [Option.map_some, Option.bind_some, Entries.insert_eq_append hlast,
      hmembers _ _ rest hroom (hbelow w)]
    cases Value.rereadMembers? depth l <;> simp

theorem finds_object {k : String} {v : Value} {l : List (String × Value)}
    (hl : Entries.Ascending ((k, v) :: l)) (hroom : l.length < budget)
    (hv : Finds (value budget depth) v.printed (v.reread? depth))
    (hmembers : FindsMembers budget depth l) :
    Finds (value budget (depth + 1)) (Value.object ((k, v) :: l)).printed
      ((Value.object ((k, v) :: l)).reread? (depth + 1)) := by
  intro rest _
  have hbelow : ∀ w : Value, ∀ a ∈ [(k, w)], ∀ e ∈ l, a.1 < e.1 := by
    intro w a ha e he
    rw [List.mem_singleton.mp ha]
    exact (List.pairwise_cons.mp hl).1 e he
  have hfirst := hv (Value.printedMembers l ++ '\x7d' :: rest) (ends_printedMembers l rest)
  simp only [Value.printed, List.cons_append, List.append_assoc, List.nil_append]
  rw [value_brace, toOption_map, toOption_members, toOption_readMember, hfirst, Value.reread?,
    Value.rereadMembers?]
  cases v.reread? depth with
  | none => rfl
  | some w =>
    simp only [Option.map_some, Option.bind_some, Entries.insert,
      hmembers _ _ rest hroom (hbelow w)]
    cases Value.rereadMembers? depth l <;> simp

theorem finds_numberText {cs : List Char} (h : NumberText cs) :
    Finds (value budget depth) cs ((numberOf? cs).map .number) := by
  cases h with
  | numeral h =>
    obtain ⟨o, ho⟩ := finds_numeral true h
    obtain ⟨c, cs, rfl, hc⟩ := numeral_head h
    intro rest hr
    have hread := ho rest hr
    rw [List.cons_append] at hread
    rw [numberOf?_digit hc, ho.alone, List.cons_append, value_digit _ _ _ hc, toOption_map, hread]
    cases o <;> rfl
  | negative h =>
    obtain ⟨o, ho⟩ := finds_numeral false h
    intro rest hr
    rw [numberOf?, ho.alone, List.cons_append, value_minus, toOption_map, ho rest hr]
    cases o <;> rfl
  | nan =>
    intro rest _
    rw [List.cons_append, value]
    rfl
  | infinity =>
    intro rest _
    rw [List.cons_append, value]
    rfl
  | negativeInfinity =>
    intro rest _
    rw [List.cons_append, value_minus]
    rfl

theorem finds_number (n : Number) :
    Finds (value budget depth) n.text.toList (n.reread?.map .number) :=
  finds_numberText (numberText n)

end Parts

mutual

/-- The reader on the printed form of a value, whatever it is that ends the value. -/
theorem finds_value (budget depth : Nat) (v : Value) (hv : v.Ordered)
    (hb : v.printed.length ≤ budget) :
    Finds (value budget depth) v.printed (v.reread? depth) := by
  match depth, v with
  | _, .null =>
    intro rest _
    exact congrArg Except.toOption (value_null budget _ rest)
  | _, .bool true =>
    intro rest _
    exact congrArg Except.toOption (value_true budget _ rest)
  | _, .bool false =>
    intro rest _
    exact congrArg Except.toOption (value_false budget _ rest)
  | _, .string s =>
    intro rest _
    exact congrArg Except.toOption (value_quoted budget _ s rest)
  | _, .number n => exact finds_number n
  | 0, .array [] => exact fun rest _ => value_bracket_zero budget _
  | 0, .array (v :: items) => exact fun rest _ => value_bracket_zero budget _
  | 0, .object [] => exact fun rest _ => value_brace_zero budget _
  | 0, .object ((k, v) :: l) => exact fun rest _ => value_brace_zero budget _
  | depth + 1, .array [] => exact finds_empty_array
  | depth + 1, .object [] => exact finds_empty_object
  | depth + 1, .array (v :: items) =>
    have hcount := length_le_printedItems items
    simp only [Value.printed, List.cons_append, List.length_cons, List.length_append] at hb
    exact finds_array (by omega) (finds_value budget depth v hv.1 (by omega))
      (finds_items budget depth items hv.2 (by omega))
  | depth + 1, .object ((k, v) :: l) =>
    have hcount := length_le_printedMembers l
    simp only [Value.printed, List.cons_append, List.length_cons, List.length_append] at hb
    exact finds_object hv.1 (by omega) (finds_value budget depth v hv.2.1 (by omega))
      (finds_members budget depth l (List.pairwise_cons.mp hv.1).2 hv.2.2 (by omega))

theorem finds_items (budget depth : Nat) (items : List Value) (hv : Value.OrderedItems items)
    (hb : (Value.printedItems items).length ≤ budget) : FindsItems budget depth items := by
  match items with
  | [] => exact findsItems_nil
  | v :: items =>
    simp only [Value.printedItems, List.cons_append, List.length_cons, List.length_append] at hb
    exact findsItems_cons (finds_value budget depth v hv.1 (by omega))
      (finds_items budget depth items hv.2 (by omega))

theorem finds_members (budget depth : Nat) (l : List (String × Value))
    (hl : Entries.Ascending l) (hv : Value.OrderedMembers l)
    (hb : (Value.printedMembers l).length ≤ budget) : FindsMembers budget depth l := by
  match l with
  | [] => exact findsMembers_nil
  | (k, v) :: l =>
    simp only [Value.printedMembers, List.cons_append, List.length_cons, List.length_append] at hb
    exact findsMembers_cons hl (finds_value budget depth v hv.1 (by omega))
      (finds_members budget depth l (List.pairwise_cons.mp hl).2 hv.2 (by omega))

end

/-- What a printed value is read back as. -/
theorem parse_text {v : Value} (hv : v.Ordered) :
    (parse v.text).toOption = v.reread? maxDepth := by
  have hfinds := finds_value v.printed.length maxDepth v hv (Nat.le_refl _) [] ends_nil
  rw [List.append_nil] at hfinds
  unfold parse
  rw [Value.toList_text]
  dsimp only
  cases ho : v.reread? maxDepth with
  | some w =>
    rw [ho] at hfinds
    rw [toOption_eq_some_iff.mp hfinds]
    rfl
  | none =>
    rw [ho] at hfinds
    cases hread : value v.printed.length maxDepth v.printed with
    | error e => rfl
    | ok r =>
      rw [hread] at hfinds
      cases hfinds

/-- An ordered value whose numbers are read back as they were is read back as it was. -/
theorem parse_text_of_stable {v : Value} (hv : v.Ordered) (hfit : v.Fits Number.Stable maxDepth) :
    parse v.text = .ok v :=
  toOption_eq_some_iff.mp ((parse_text hv).trans (Value.reread?_of_stable hfit))

end Announcer.Json
