import Announcer.Proofs.Event
/-!
# Which endpoints can be sent

A config is checked by its parts and sent as a whole. Each further member of a
capability is read alone when the descriptor is checked, and again three brackets
deeper when the config goes into an event. So a descriptor can pass every check and
still make every event that carries it impossible to build.

Results:
* `sendable_iff`: the event of some prepared configs can be built exactly when every further member
  leaves three brackets of what the reader allows, and its numbers are legible.
* `unsendable_brackets`: a member of 125 brackets passes the checks, and its config cannot be sent.
-/
namespace Announcer

open Json (Value Number)

/-! ## Prepared configs -/

theorem Capability.FurtherFit.imp {p q : Number → Prop} (hpq : ∀ n, p n → q n) {depth : Nat}
    {c : Capability} (h : c.FurtherFit p depth) : c.FurtherFit q depth :=
  fun key raw v hget hread => (h key raw v hget hread).both (fun n hn _ => hpq n hn)
    (h key raw v hget hread)

theorem Capability.FurtherFit.stable {depth : Nat} {c : Capability}
    (h : c.FurtherFit Number.IsInteger depth) : c.FurtherFit Number.Stable depth :=
  fun key raw v hget hread => Json.fits_stable_of_parse hread (h key raw v hget hread)

namespace Event

/-- The event of some prepared configs can be built exactly when no further member nests so deep
that its config is three brackets too deep, and every number of one is legible; every integer is. -/
theorem sendable_iff {maxCapabilities : Nat} {descriptors : List (Attributes × List Capability)}
    {configs : List Config} (h : List.Forall₂
      (fun d c => Config.prepare maxCapabilities d.1 d.2 = .ok c) descriptors configs)
    (kind : ReportKind) (token : String) (ids : EventIds) :
    ((∃ e, Event.build kind configs token ids = .ok e) ↔
      ∀ d ∈ descriptors, ∀ cap ∈ d.2, cap.FurtherFit Number.Legible Config.furtherDepth) ∧
    ((∀ d ∈ descriptors, ∀ cap ∈ d.2, cap.FurtherFit Number.IsInteger Config.furtherDepth) →
      ∃ e, Event.build kind configs token ids = .ok e) := by
  have hiff : (∃ e, Event.build kind configs token ids = .ok e) ↔
      ∀ d ∈ descriptors, ∀ cap ∈ d.2, cap.FurtherFit Number.Legible Config.furtherDepth := by
    rw [exists_build_iff]
    constructor
    · intro hall d hd
      obtain ⟨c, hc, hprepare⟩ := exists_right_of_forall₂ h d hd
      exact (Config.isSome_read_iff (Config.build_of_prepare hprepare).1).mp (hall c hc)
    · intro hall c hc
      obtain ⟨d, hd, hprepare⟩ := exists_left_of_forall₂ h c hc
      exact (Config.isSome_read_iff (Config.build_of_prepare hprepare).1).mpr (hall d hd)
  refine ⟨hiff, fun hintegers => hiff.mpr fun d hd cap hcap => ?_⟩
  exact (hintegers d hd cap hcap).stable.imp fun _ hn => hn.legible

end Event

/-! ## A member that is too deep -/

/-- So many opening brackets and as many closing ones. -/
def brackets (n : Nat) : String :=
  String.ofList (List.replicate n '[' ++ List.replicate n ']')

namespace Json.Value

/-- Lists in one another, the innermost of them empty. -/
def nested : Nat → Value
  | 0 => .array []
  | n + 1 => .array [nested n]

theorem printed_nested (n : Nat) :
    (nested n).printed = List.replicate (n + 1) '[' ++ List.replicate (n + 1) ']' := by
  induction n with
  | zero => rfl
  | succ n ih =>
    rw [nested, printed, ih, printedItems, List.replicate_succ (n := n + 1) (a := '['),
      List.replicate_succ' (n := n + 1) (a := ']')]
    simp

theorem text_nested (n : Nat) : (nested n).text = brackets (n + 1) := by
  rw [text_eq, printed_nested, brackets]

theorem ordered_nested (n : Nat) : (nested n).Ordered := by
  induction n with
  | zero => simp [nested]
  | succ n ih => simpa [nested] using ih

theorem fits_nested_iff {p : Number → Prop} {n depth : Nat} :
    (nested n).Fits p depth ↔ n < depth := by
  induction n generalizing depth with
  | zero => cases depth <;> simp [nested]
  | succ n ih => cases depth <;> simp [nested, ih]

theorem parse_nested {n : Nat} (h : n < maxDepth) : parse (nested n).text = .ok (nested n) :=
  parse_text_of_stable (ordered_nested n) (fits_nested_iff.mpr h)

end Json.Value

/-- A capability with one further member. -/
def Capability.configured (raw : String) : Capability :=
  { plain with additional := .ofList [("configuration", raw)] }

/-- The published form of a capability with one further member. -/
def Capability.configuredValue (v : Value) : Value :=
  .ofMembers ((configured "").fixedMembers ++ [("configuration", v)])

namespace Config

theorem prepare_configured {raw : String} {v : Value} (h : Json.parse raw = .ok v)
    (hsize : (source .lamp [Capability.configuredValue v]).canonical.text.utf8ByteSize ≤
      maxConfigBytesPerEvent) :
    prepare 100 .lamp [.configured raw] =
      .ok ⟨(source .lamp [Capability.configuredValue v]).canonical.text⟩ :=
  prepare_extended rfl h hsize

/-- The deepest member that can be sent, and one that is a bracket deeper, are light. -/
theorem light_nested : ∀ n ∈ [123, 124],
    (source .lamp [Capability.configuredValue (.nested n)]).canonical.text.utf8ByteSize ≤
      maxConfigBytesPerEvent := by
  simp only [Event.utf8ByteSize_text]
  decide +kernel

theorem prepare_brackets {n : Nat} (h : n ∈ [123, 124]) :
    prepare 100 .lamp [.configured (brackets (n + 1))] =
      .ok ⟨(source .lamp [Capability.configuredValue (.nested n)]).canonical.text⟩ := by
  have hdepth : n < Json.maxDepth := by
    simp only [List.mem_cons, List.not_mem_nil, or_false] at h
    rcases h with rfl | rfl <;> decide
  have hread := Value.parse_nested hdepth
  rw [Value.text_nested] at hread
  exact prepare_configured hread (light_nested n h)

end Config

namespace Event

/-- What fits of the one further member fits of all of them. -/
theorem furtherFit_configured {raw : String} {v : Value} (hread : Json.parse raw = .ok v)
    {p : Number → Prop} {depth : Nat} :
    (Capability.configured raw).FurtherFit p depth ↔ v.Fits p depth :=
  Capability.furtherFit_extended hread

theorem furtherFit_brackets {p : Number → Prop} {n depth : Nat} (h : n < Json.maxDepth) :
    (Capability.configured (brackets (n + 1))).FurtherFit p depth ↔ n < depth := by
  have hread := Value.parse_nested h
  rw [Value.text_nested] at hread
  exact (furtherFit_configured hread).trans Value.fits_nested_iff

/-- A member of 124 brackets can be sent. -/
theorem sendable_brackets :
    ∃ c, List.Forall₂ (fun d c => Config.prepare 100 d.1 d.2 = .ok c)
        [(Attributes.lamp, [Capability.configured (brackets 124)])] [c] ∧
      ∃ e, Event.build .addOrUpdate [c] "token" (Uuid.eventIds 0) = .ok e := by
  have hprepare := Config.prepare_brackets (n := 123) (by simp)
  have hall : List.Forall₂ (fun d c => Config.prepare 100 d.1 d.2 = .ok c)
      [(Attributes.lamp, [Capability.configured (brackets 124)])] [_] := .cons hprepare .nil
  refine ⟨_, hall, (sendable_iff hall .addOrUpdate "token" (Uuid.eventIds 0)).2 ?_⟩
  simp only [List.forall_mem_singleton]
  exact (furtherFit_brackets (by decide)).mpr (by decide)

/-- A member of 125 brackets passes every check, and no event can carry its config. -/
theorem unsendable_brackets :
    ∃ c, Config.prepare 100 .lamp [.configured (brackets 125)] = .ok c ∧
      ∀ token ids, ¬ ∃ e, Event.build .addOrUpdate [c] token ids = .ok e := by
  have hprepare := Config.prepare_brackets (n := 124) (by simp)
  refine ⟨_, hprepare, fun token ids h => ?_⟩
  have hread := exists_build_iff.mp h _ (List.mem_singleton.mpr rfl)
  have hfit := (Config.isSome_read_iff (Config.build_of_prepare hprepare).1).mp hread _
    (List.mem_singleton.mpr rfl)
  exact absurd ((furtherFit_brackets (by decide)).mp hfit) (by decide)

end Event

end Announcer
