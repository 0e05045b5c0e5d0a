import Announcer.Proofs.Event.Sendable
import Announcer.Proofs.SubBatch
import Announcer.Sender
/-!
# How large an event is

The configs of one event are limited to what is left of an event behind a fixed
reserve. The reserve has to hold the envelope, the token, and a comma between any two
endpoints, and only announcements are limited in number.

Results:
* `size_of_part`: the exact size of each event of a batch, and that it stays below the ceiling:
  always for announcements, and for up to 1771 withdrawals.
* `overfull_crowd`: the event of many short withdrawals is larger.
-/
namespace Announcer

open Json (Value quoted)
open String (utf8Len)

/-! ## Configs that are sent as they were counted -/

namespace Config

/-- What is read from a config is printed again as it stands there. -/
def Faithful (c : Config) : Prop := ∀ v, Json.parse c.text = .ok v → v.text = c.text

theorem faithful_of_build {a : Attributes} {capabilities : List Capability} {c : Config}
    {depth : Nat} (h : build a capabilities = .ok c)
    (hstable : ∀ cap ∈ capabilities, cap.FurtherFit Json.Number.Stable depth) :
    c.Faithful := by
  intro v hv
  -- the config can be read, so its further members are not too deep
  have hlegible := (isSome_read_iff h).mp (by rw [hv]; rfl)
  have hdepth : ∀ cap ∈ capabilities, cap.FurtherFit Json.Number.Stable furtherDepth :=
    fun cap hcap key raw w hget hread =>
      (hlegible cap hcap key raw w hget hread).both (fun _ _ hn => hn)
        (hstable cap hcap key raw w hget hread)
  obtain ⟨w, hw, htext⟩ := read_of_stable h hdepth
  cases hv.symm.trans hw
  exact htext

theorem faithful_of_prepare {max : Nat} {a : Attributes} {capabilities : List Capability}
    {c : Config} (h : prepare max a capabilities = .ok c)
    (hstable : ∀ cap ∈ capabilities, cap.FurtherFit Json.Number.Stable Json.maxDepth) :
    c.Faithful :=
  faithful_of_build (build_of_prepare h).1 hstable

theorem parse_withdrawal (id : String) :
    Json.parse (withdrawal id).text = .ok (.object [("endpointId", .string id)]) := by
  have hordered : (Value.object [("endpointId", .string id)]).Ordered := by
    simp [Value.ordered_object]
  have hfits : (Value.object [("endpointId", .string id)]).Fits Json.Number.Stable 127 := by simp
  rw [withdrawal]
  exact Json.parse_text_of_stable hordered hfits

theorem faithful_withdrawal (id : String) : (withdrawal id).Faithful := by
  intro v hv
  cases hv.symm.trans (parse_withdrawal id)
  rfl

end Config

/-! ## Events of such configs -/

namespace Event

variable {kind : ReportKind} {configs : List Config} {token : String} {ids : EventIds}

theorem sum_of_faithful {endpoints : List Value} (hfaithful : ∀ c ∈ configs, c.Faithful)
    (h : List.Forall₂ (fun c v => Json.parse c.text = .ok v) configs endpoints) :
    (endpoints.map fun v => v.text.utf8ByteSize).sum = totalSize configs := by
  induction h with
  | nil => rfl
  | cons hread _ ih =>
    obtain ⟨hc, hrest⟩ := List.forall_mem_cons.mp hfaithful
    rw [List.map_cons, List.sum_cons, ih hrest, hc _ hread]
    rfl

/-- An event has the bytes of its envelope, of its configs, and of the commas between them. -/
theorem size_of_faithful (hfaithful : ∀ c ∈ configs, c.Faithful) {e : Event}
    (h : Event.build kind configs token ids = .ok e) :
    e.text.utf8ByteSize =
      envelopeSize kind token ids + totalSize configs + (configs.length - 1) := by
  obtain ⟨endpoints, hread, rfl⟩ := build_eq_ok_iff.mp h
  rw [size_around, sum_of_faithful hfaithful hread, hread.length_eq]

end Event

/-! ## Parts of a batch -/

namespace Batch

variable {b : Batch} {part : Part}

theorem mem_of_mem_subBatches {maxCount : Option Nat} {maxBytes : Nat} {configs run : List Config}
    (h : run ∈ subBatches maxCount maxBytes configs) : ∀ c ∈ run, c ∈ configs := by
  intro c hc
  rw [← flatten_subBatches maxCount maxBytes configs]
  exact List.mem_flatten.mpr ⟨run, h, hc⟩

/-- A part holds announcements or withdrawals of the batch. -/
theorem part_cases (h : part ∈ b.parts) :
    (part.kind = .addOrUpdate ∧ part.configs ∈
      subBatches (some maxEndpointsPerReport) maxConfigBytesPerEvent b.announced.values) ∨
    (part.kind = .delete ∧
      part.configs ∈ subBatches none maxConfigBytesPerEvent b.withdrawn.values) := by
  rcases List.mem_append.mp h with h | h
  · obtain ⟨run, hrun, rfl⟩ := List.mem_map.mp h
    exact .inl ⟨rfl, hrun⟩
  · obtain ⟨run, hrun, rfl⟩ := List.mem_map.mp h
    exact .inr ⟨rfl, hrun⟩

theorem fits_alone {maxCount : Option Nat} (hcount : ∀ max ∈ maxCount, 1 ≤ max) {c : Config}
    (h : c.size ≤ maxConfigBytesPerEvent) : SubBatch.Fits maxCount maxConfigBytesPerEvent [c] where
  count := hcount
  bytes := h

/-- What is known of the configs of an announcement that is sent as it was counted. -/
theorem announcements_fit {maxCapabilities : Nat} {configs run : List Config}
    (hprepared : ∀ c ∈ configs, ∃ a capabilities,
      Config.prepare maxCapabilities a capabilities = .ok c ∧
        ∀ cap ∈ capabilities, cap.FurtherFit Json.Number.Stable Json.maxDepth)
    (hrun : run ∈ subBatches (some maxEndpointsPerReport) maxConfigBytesPerEvent configs) :
    (∀ c ∈ run, c.Faithful) ∧
      SubBatch.Fits (some maxEndpointsPerReport) maxConfigBytesPerEvent run := by
  constructor
  · intro c hc
    obtain ⟨a, capabilities, hprepare, hstable⟩ := hprepared c (mem_of_mem_subBatches hrun c hc)
    exact Config.faithful_of_prepare hprepare hstable
  · refine fits_of_mem_subBatches (fun c hc => ?_) hrun
    obtain ⟨a, capabilities, hprepare, -⟩ := hprepared c hc
    apply fits_alone _ (Config.build_of_prepare hprepare).2
    intro max hmax
    cases hmax
    decide

theorem withdrawals_fit {configs run : List Config}
    (hwithdrawn : ∀ c ∈ configs,
      (∃ id, c = Config.withdrawal id) ∧ c.size ≤ maxConfigBytesPerEvent)
    (hrun : run ∈ subBatches none maxConfigBytesPerEvent configs) :
    (∀ c ∈ run, c.Faithful) ∧ SubBatch.Fits none maxConfigBytesPerEvent run := by
  constructor
  · intro c hc
    obtain ⟨⟨id, rfl⟩, -⟩ := hwithdrawn c (mem_of_mem_subBatches hrun c hc)
    exact Config.faithful_withdrawal id
  · exact fits_of_mem_subBatches (fun c hc => fits_alone (by simp) (hwithdrawn c hc).2) hrun

/-- So many withdrawals are sure to leave room for the commas between them. -/
def sureWithdrawals : Nat := 1771

/-- Every event of a batch whose configs were prepared and are read back as they were has
exactly the bytes of its envelope, its configs and the commas between them. With a token of at most
8192 bytes, that is at most the ceiling for announcements, and for so many withdrawals. -/
theorem size_of_part {maxCapabilities : Nat}
    (hannounced : ∀ c ∈ b.announced.values, ∃ a capabilities,
      Config.prepare maxCapabilities a capabilities = .ok c ∧
        ∀ cap ∈ capabilities, cap.FurtherFit Json.Number.Stable Json.maxDepth)
    (hwithdrawn : ∀ c ∈ b.withdrawn.values,
      (∃ id, c = Config.withdrawal id) ∧ c.size ≤ maxConfigBytesPerEvent)
    (hpart : part ∈ b.parts) {token : String} {ids : EventIds} {event : Event}
    (htoken : (Json.quote token).utf8ByteSize ≤ 8192 + 2)
    (hmessage : Uuid.isVersion4 ids.message = true)
    (hcorrelation : Uuid.isVersion4 ids.correlation = true)
    (hevent : Event.build part.kind part.configs token ids = .ok event) :
    event.text.utf8ByteSize = Event.envelopeSize part.kind token ids + totalSize part.configs +
      (part.configs.length - 1) ∧
    (part.kind = .addOrUpdate → event.text.utf8ByteSize ≤ maxEventBytes) ∧
    (part.kind = .delete → part.configs.length ≤ sureWithdrawals →
      event.text.utf8ByteSize ≤ maxEventBytes) := by
  have hquoted : utf8Len (quoted token) ≤ 8194 := by
    rwa [← Json.toList_quote, ← String.utf8ByteSize_ofList, String.ofList_toList]
  have henvelope := Event.envelopeSize_eq part.kind token hmessage hcorrelation
  have hceiling : maxEventBytes = maxConfigBytesPerEvent + 10240 := by decide
  rcases part_cases hpart with ⟨hkind, hrun⟩ | ⟨hkind, hrun⟩
  · obtain ⟨hfaithful, hcount, hbytes⟩ := announcements_fit hannounced hrun
    have hsize := Event.size_of_faithful hfaithful hevent
    have hname : utf8Len (quoted ReportKind.addOrUpdate.name) = 19 := by decide
    have hmax : part.configs.length ≤ 300 := hcount maxEndpointsPerReport rfl
    rw [hkind] at hsize henvelope ⊢
    exact ⟨hsize, fun _ => by omega, nofun⟩
  · obtain ⟨hfaithful, -, hbytes⟩ := withdrawals_fit hwithdrawn hrun
    have hsize := Event.size_of_faithful hfaithful hevent
    have hname : utf8Len (quoted ReportKind.delete.name) = 14 := by decide
    rw [hkind] at hsize henvelope ⊢
    refine ⟨hsize, nofun, fun _ hsure => ?_⟩
    have hmax : part.configs.length ≤ 1771 := hsure
    omega

/-- Another endpoint like the lamp. -/
def secondLamp : Attributes := { Attributes.lamp with endpointId := "e2" }

/-- Two such endpoints fit into one event. -/
theorem prepare_lamps {a : Attributes} (h : a ∈ [Attributes.lamp, secondLamp]) : ∃ c,
    Config.prepare 100 a [.configured (brackets 124)] = .ok c ∧ c.size ≤ 1000 := by
  have hlight : ∀ a ∈ [Attributes.lamp, secondLamp],
      (Config.source a [Capability.configuredValue (.nested 123)]).canonical.text.utf8ByteSize ≤
        1000 := by
    simp only [Event.utf8ByteSize_text]
    decide +kernel
  have hcheck : ∀ a ∈ [Attributes.lamp, secondLamp], a.check = .ok () := by decide +kernel
  have hread := Json.Value.parse_nested (n := 123) (by decide)
  rw [Json.Value.text_nested] at hread
  exact ⟨_, Config.prepare_extended (hcheck a h) hread ((hlight a h).trans (by decide)),
    hlight a h⟩

/-- A batch of two announcements and two withdrawals. Each event has one comma between its configs,
and both stay below the ceiling. -/
theorem size_of_part_pair : ∃ c d,
    Config.prepare 100 .lamp [.configured (brackets 124)] = .ok c ∧
    Config.prepare 100 secondLamp [.configured (brackets 124)] = .ok d ∧
    (∃ event, Event.build .addOrUpdate [c, d] "token" (Uuid.eventIds 0) = .ok event ∧
      event.text.utf8ByteSize = Event.envelopeSize .addOrUpdate "token" (Uuid.eventIds 0) +
        totalSize [c, d] + 1 ∧ event.text.utf8ByteSize ≤ maxEventBytes) ∧
    ∃ event, Event.build .delete [.withdrawal "e3", .withdrawal "e4"] "token" (Uuid.eventIds 0) =
        .ok event ∧
      event.text.utf8ByteSize = Event.envelopeSize .delete "token" (Uuid.eventIds 0) +
        totalSize [.withdrawal "e3", .withdrawal "e4"] + 1 ∧
      event.text.utf8ByteSize ≤ maxEventBytes := by
  obtain ⟨c, hc, hcsize⟩ := prepare_lamps (a := .lamp) (by simp)
  obtain ⟨d, hd, hdsize⟩ := prepare_lamps (a := secondLamp) (by simp)
  have hfirst : "e1" < "e2" := by decide
  have hlast : "e3" < "e4" := by decide
  let pair : Batch := ⟨⟨[("e1", c), ("e2", d)], List.pairwise_pair.mpr hfirst⟩,
    ⟨[("e3", .withdrawal "e3"), ("e4", .withdrawal "e4")], List.pairwise_pair.mpr hlast⟩⟩
  have hfits : SubBatch.Fits (some maxEndpointsPerReport) maxConfigBytesPerEvent [c, d] := by
    have hlimit : maxConfigBytesPerEvent = 251904 := rfl
    refine ⟨fun max hmax => ?_, ?_⟩
    · cases hmax
      show 2 ≤ 300
      decide
    · simp only [totalSize]
      omega
  have hparts : pair.parts =
      [⟨.addOrUpdate, [c, d]⟩, ⟨.delete, [.withdrawal "e3", .withdrawal "e4"]⟩] := by
    have hvalues : pair.announced.values = [c, d] := rfl
    rw [Batch.parts, hvalues, subBatches_of_fits (List.cons_ne_nil _ _) hfits]
    rfl
  have hfurther : ∀ {p : Json.Number → Prop} {depth : Nat}, 123 < depth →
      ∀ cap ∈ [Capability.configured (brackets 124)], cap.FurtherFit p depth := by
    intro p depth hdepth
    simp only [List.forall_mem_singleton]
    exact (Event.furtherFit_brackets (by decide)).mpr hdepth
  have hannounced : ∀ e ∈ pair.announced.values, ∃ a capabilities,
      Config.prepare 100 a capabilities = .ok e ∧
        ∀ cap ∈ capabilities, cap.FurtherFit Json.Number.Stable Json.maxDepth := by
    intro e he
    rcases List.mem_pair.mp he with rfl | rfl
    · exact ⟨_, _, hc, hfurther (by decide)⟩
    · exact ⟨_, _, hd, hfurther (by decide)⟩
  have hwithdrawn : ∀ e ∈ pair.withdrawn.values,
      (∃ id, e = Config.withdrawal id) ∧ e.size ≤ maxConfigBytesPerEvent := by
    intro e he
    rcases List.mem_pair.mp he with rfl | rfl
    · exact ⟨⟨"e3", rfl⟩, by decide +kernel⟩
    · exact ⟨⟨"e4", rfl⟩, by decide +kernel⟩
  have hread : ∀ e ∈ [c, d], (Json.parse e.text).toOption.isSome = true := by
    intro e he
    rcases List.mem_pair.mp he with rfl | rfl
    · exact (Config.isSome_read_iff (Config.build_of_prepare hc).1).mpr (hfurther (by decide))
    · exact (Config.isSome_read_iff (Config.build_of_prepare hd).1).mpr (hfurther (by decide))
  have htoken : (Json.quote "token").utf8ByteSize ≤ 8192 + 2 := by decide +kernel
  have hids : Uuid.isVersion4 (Uuid.eventIds 0).message = true ∧
      Uuid.isVersion4 (Uuid.eventIds 0).correlation = true := by decide +kernel
  refine ⟨c, d, hc, hd, ?_, ?_⟩
  · obtain ⟨event, hevent⟩ :
        ∃ e, Event.build .addOrUpdate [c, d] "token" (Uuid.eventIds 0) = .ok e :=
      Event.exists_build_iff.mpr hread
    have hpart : (⟨.addOrUpdate, [c, d]⟩ : Part) ∈ pair.parts := by simp [hparts]
    obtain ⟨hsize, hceiling, -⟩ :=
      size_of_part hannounced hwithdrawn hpart htoken hids.1 hids.2 hevent
    exact ⟨event, hevent, hsize, hceiling rfl⟩
  · obtain ⟨event, hevent⟩ : ∃ e, Event.build .delete [.withdrawal "e3", .withdrawal "e4"] "token"
        (Uuid.eventIds 0) = .ok e := by
      refine Event.exists_build_iff.mpr fun e he => ?_
      rcases List.mem_pair.mp he with rfl | rfl <;> rw [Config.parse_withdrawal] <;> rfl
    have hpart : (⟨.delete, [.withdrawal "e3", .withdrawal "e4"]⟩ : Part) ∈ pair.parts := by
      simp [hparts]
    obtain ⟨hsize, -, hceiling⟩ :=
      size_of_part hannounced hwithdrawn hpart htoken hids.1 hids.2 hevent
    have hsure : 2 ≤ sureWithdrawals := by decide
    exact ⟨event, hevent, by simpa using hsize, hceiling rfl hsure⟩

end Batch

/-! ## A crowd of withdrawals -/

/-- One character, a different one for every number. -/
def crowdId (i : Nat) : String := String.ofList [Char.ofNat (0x4E00 + i)]

theorem toNat_crowd {i : Nat} (h : i < 12595) : (Char.ofNat (0x4E00 + i)).toNat = 0x4E00 + i := by
  have hvalid : (0x4E00 + i).isValidChar := .inl (by omega)
  rw [Char.ofNat, dif_pos hvalid]
  exact UInt32.toNat_ofNatLT

theorem checkId_crowd (i : Nat) : checkId (crowdId i) = .ok () := by
  have hempty : (crowdId i).isEmpty = false := by simp [crowdId]
  have hlength : (crowdId i).length = 1 := by simp [crowdId]
  rw [checkId, Checked.bounded, hempty, hlength]
  rfl

theorem crowdId_lt {i j : Nat} (hij : i < j) (hj : j < 12595) : crowdId i < crowdId j := by
  have hchar : Char.ofNat (0x4E00 + i) < Char.ofNat (0x4E00 + j) := by
    apply UInt32.lt_iff_toNat_lt.mpr
    show (Char.ofNat (0x4E00 + i)).toNat < (Char.ofNat (0x4E00 + j)).toNat
    rw [toNat_crowd (by omega), toNat_crowd hj]
    omega
  rw [String.lt_iff_toList_lt, crowdId, crowdId, String.toList_ofList, String.toList_ofList]
  exact List.cons_lt_cons_iff.mpr (.inl hchar)

theorem size_crowd {i : Nat} (h : i < 12595) : (Config.withdrawal (crowdId i)).size = 20 := by
  have hcode := toNat_crowd h
  have hescape := Event.escape_eq_self (c := Char.ofNat (0x4E00 + i)) (by omega) (by omega)
    (by omega)
  have hbytes : (Char.ofNat (0x4E00 + i)).utf8Size = 3 := by
    have hval : (Char.ofNat (0x4E00 + i)).val.toNat = 0x4E00 + i := hcode
    unfold Char.utf8Size
    rw [if_neg, if_neg, if_pos] <;> rw [UInt32.le_iff_toNat_le, hval]
    · show 0x4E00 + i ≤ 0xFFFF
      omega
    · show ¬ 0x4E00 + i ≤ 0x7FF
      omega
    · show ¬ 0x4E00 + i ≤ 0x7F
      omega
  have hid : utf8Len (quoted (crowdId i)) = 5 := by
    rw [quoted, crowdId, String.toList_ofList, List.flatMap_singleton, hescape]
    simp only [String.utf8Len_append, String.utf8Len_cons, String.utf8Len_nil, hbytes]
    rfl
  rw [Config.size, Config.withdrawal, Event.utf8ByteSize_text]
  simp only [Value.printed, Value.printedMembers, String.utf8Len_append, String.utf8Len_cons,
    String.utf8Len_nil, hid]
  rfl

/-- As many withdrawals as fit by their own bytes. -/
def crowd : Batch where
  announced := .empty
  withdrawn := ⟨(List.range 12595).map fun i => (crowdId i, .withdrawal (crowdId i)), by
    refine List.pairwise_map.mpr (List.pairwise_lt_range.imp_of_mem ?_)
    intro i j _ hj hij
    exact crowdId_lt hij (List.mem_range.mp hj)⟩

theorem totalSize_crowd {l : List Nat} (h : ∀ i ∈ l, i < 12595) :
    totalSize (l.map fun i => Config.withdrawal (crowdId i)) = 20 * l.length := by
  induction l with
  | nil => rfl
  | cons i l ih =>
    obtain ⟨hi, hl⟩ := List.forall_mem_cons.mp h
    rw [List.map_cons, totalSize, size_crowd hi, ih hl, List.length_cons]
    omega

theorem values_crowd : crowd.withdrawn.values =
    (List.range 12595).map fun i => Config.withdrawal (crowdId i) := by
  rw [StringMap.values, crowd, List.map_map]
  rfl

theorem parts_crowd : crowd.parts = [⟨.delete, crowd.withdrawn.values⟩] := by
  have hlength : (List.range 12595).length = 12595 := List.length_range
  have hfits : SubBatch.Fits none maxConfigBytesPerEvent crowd.withdrawn.values := by
    refine ⟨nofun, ?_⟩
    rw [values_crowd, totalSize_crowd fun i hi => List.mem_range.mp hi, hlength]
    decide
  have hne : crowd.withdrawn.values ≠ [] := by
    rw [values_crowd, ne_eq, List.map_eq_nil_iff]
    intro hnil
    rw [hnil] at hlength
    cases hlength
  rw [Batch.parts, subBatches_of_fits hne hfits]
  rfl

/-- The configs of the crowd fit into one event, and the event is larger than the ceiling. -/
theorem overfull_crowd : ∃ part ∈ crowd.parts,
    (∀ c ∈ part.configs, ∃ id, checkId id = .ok () ∧ c = Config.withdrawal id) ∧
    ∀ token ids, ∃ event, Event.build part.kind part.configs token ids = .ok event ∧
      maxEventBytes < event.text.utf8ByteSize := by
  have hmem : ∀ c ∈ crowd.withdrawn.values, ∃ i, Config.withdrawal (crowdId i) = c := by
    intro c hc
    rw [values_crowd] at hc
    exact (List.mem_map.mp hc).imp fun i hi => hi.2
  have hbytes : totalSize crowd.withdrawn.values = 20 * 12595 := by
    rw [values_crowd, totalSize_crowd fun i hi => List.mem_range.mp hi, List.length_range]
  have hcount : crowd.withdrawn.values.length = 12595 := by
    rw [values_crowd, List.length_map, List.length_range]
  rw [parts_crowd]
  generalize crowd.withdrawn.values = values at hmem hbytes hcount
  refine ⟨_, List.mem_singleton.mpr rfl, fun c hc => ?_, fun token ids => ?_⟩
  · obtain ⟨i, rfl⟩ := hmem c hc
    exact ⟨crowdId i, checkId_crowd i, rfl⟩
  · have hread : ∀ c ∈ values, (Json.parse c.text).toOption.isSome = true := by
      intro c hc
      obtain ⟨i, rfl⟩ := hmem c hc
      rw [Config.parse_withdrawal]
      rfl
    have hfaithful : ∀ c ∈ values, c.Faithful := by
      intro c hc
      obtain ⟨i, rfl⟩ := hmem c hc
      exact Config.faithful_withdrawal _
    obtain ⟨event, hevent⟩ : ∃ e, Event.build .delete values token ids = .ok e :=
      Event.exists_build_iff.mpr hread
    refine ⟨event, hevent, ?_⟩
    have hsize := Event.size_of_faithful hfaithful hevent
    have hceiling : maxEventBytes = 262144 := rfl
    omega

end Announcer
