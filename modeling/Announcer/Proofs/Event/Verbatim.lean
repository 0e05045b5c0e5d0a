import Announcer.Proofs.Event.Ceiling
import Announcer.Proofs.Json.Decode
/-!
# What is sent is what is stored

An event is built by reading its configs and printing them again. A config that is written here,
from a descriptor without floats or to withdraw an endpoint, is printed as it was, so an event is
a fixed envelope around the texts of its configs.

An event whose endpoints leave four brackets of what the reader allows is itself read back as it
was. So is every event that withdraws endpoints, and their ids are found in it again.

Results: `envelope_build`.
-/
namespace Announcer

open Json (Value Number quote quoted)

namespace Event

/-! ## The envelope -/

/-- What every event starts with, up to its endpoints. -/
def opening (kind : ReportKind) (token : String) (ids : EventIds) : String :=
  "\x7b\"event\":\x7b\"header\":\x7b\"namespace\":\"Alexa.Discovery\",\"name\":" ++
    quote kind.name ++ ",\"messageId\":" ++ quote ids.message ++
    ",\"eventCorrelationToken\":" ++ quote ids.correlation ++
    ",\"payloadVersion\":\"3\"\x7d,\"payload\":" ++
    "\x7b\"scope\":\x7b\"type\":\"BearerToken\",\"token\":" ++ quote token ++
    "\x7d,\"endpoints\":"

/-- An event around some texts, in their order. -/
def envelope (kind : ReportKind) (token : String) (ids : EventIds) (texts : List String) :
    String :=
  opening kind token ids ++ ("[" ++ ",".intercalate texts ++ "]") ++ "\x7d\x7d\x7d"

theorem toList_append_of {s t : String} {cs ds : List Char} (hs : s.toList = cs)
    (ht : t.toList = ds) : (s ++ t).toList = cs ++ ds := by
  rw [String.toList_append, hs, ht]

theorem toList_opening (kind : ReportKind) (token : String) (ids : EventIds) :
    (opening kind token ids).toList = front kind token ids := by
  -- the fixed parts one by one, so that none of them is ever compared with another
  have hname :
      "\x7b\"event\":\x7b\"header\":\x7b\"namespace\":\"Alexa.Discovery\",\"name\":".toList =
        '\x7b' :: quoted "event" ++ ':' :: '\x7b' :: quoted "header" ++ ':' :: '\x7b' ::
          quoted "namespace" ++ ':' :: quoted eventNamespace ++ ',' :: quoted "name" ++ [':'] := by
    decide
  have hmessage : ",\"messageId\":".toList = ',' :: quoted "messageId" ++ [':'] := by decide
  have hcorrelation : ",\"eventCorrelationToken\":".toList =
      ',' :: quoted "eventCorrelationToken" ++ [':'] := by decide
  have hversion : ",\"payloadVersion\":\"3\"\x7d,\"payload\":".toList =
      ',' :: quoted "payloadVersion" ++ ':' :: quoted payloadVersion ++ '\x7d' :: ',' ::
        quoted "payload" ++ [':'] := by decide
  have hscope : "\x7b\"scope\":\x7b\"type\":\"BearerToken\",\"token\":".toList =
      '\x7b' :: quoted "scope" ++ ':' :: '\x7b' :: quoted "type" ++ ':' :: quoted "BearerToken" ++
        ',' :: quoted "token" ++ [':'] := by decide
  have hendpoints : "\x7d,\"endpoints\":".toList =
      '\x7d' :: ',' :: quoted "endpoints" ++ [':'] := by decide
  have hkind := toList_append_of hname (Json.toList_quote kind.name)
  have hmessageId := toList_append_of (toList_append_of hkind hmessage)
    (Json.toList_quote ids.message)
  have hids := toList_append_of (toList_append_of hmessageId hcorrelation)
    (Json.toList_quote ids.correlation)
  have htoken := toList_append_of (toList_append_of (toList_append_of hids hversion) hscope)
    (Json.toList_quote token)
  refine (toList_append_of htoken hendpoints).trans ?_
  simp only [front, headerValue, scopeValue, Value.printed, Value.printedMembers,
    List.append_assoc, List.cons_append, List.nil_append, List.append_nil]

theorem text_around (kind : ReportKind) (token : String) (ids : EventIds)
    (endpoints : List Value) : (around kind token ids endpoints).text =
      envelope kind token ids (endpoints.map Value.text) := by
  refine String.toList_inj.mp ?_
  have hclosing : "\x7d\x7d\x7d".toList = ['\x7d', '\x7d', '\x7d'] := rfl
  have henvelope := toList_append_of (toList_append_of (toList_opening kind token ids)
    (Value.toList_text (.array endpoints))) hclosing
  rw [envelope, ← Value.text_array, henvelope, text, Value.toList_text, printed_around,
    List.append_assoc]

/-- Configs that are printed again as they stand there are in the event as they stand there. -/
theorem text_of_faithful {kind : ReportKind} {configs : List Config} {token : String}
    {ids : EventIds} (hfaithful : ∀ c ∈ configs, c.Faithful) {e : Event}
    (h : Event.build kind configs token ids = .ok e) :
    e.text = envelope kind token ids (configs.map Config.text) ∧ e.header.ids = ids := by
  obtain ⟨endpoints, hread, rfl⟩ := build_eq_ok_iff.mp h
  have htexts : ∀ {configs endpoints}, List.Forall₂ (fun c v => Json.parse c.text = .ok v)
      configs endpoints → (∀ c ∈ configs, c.Faithful) →
      endpoints.map Value.text = configs.map Config.text := by
    intro configs endpoints hread
    induction hread with
    | nil => exact fun _ => rfl
    | cons hfirst _ ih =>
      intro hall
      obtain ⟨hc, hrest⟩ := List.forall_mem_cons.mp hall
      exact congrArg₂ List.cons (hc _ hfirst) (ih hrest)
  exact ⟨by rw [text_around, htexts hread hfaithful], rfl⟩

/-! ## Reading an event -/

open Json.Decode

variable {budget depth : Nat}

theorem finds_header (depth : Nat) (header : EventHeader) (hb : 5 ≤ budget) :
    Json.Finds (decoder.header budget (depth + 1))
      (Value.object [("namespace", .string header.space), ("name", .string header.name),
        ("messageId", .string header.ids.message),
        ("eventCorrelationToken", .string header.ids.correlation),
        ("payloadVersion", .string header.version)]).printed (some header) := by
  unfold decoder.header
  refine finds_record [fun h => { h with space := header.space },
    fun h => { h with name := header.name },
    fun h => { h with ids := { h.ids with message := header.ids.message } },
    fun h => { h with ids := { h.ids with correlation := header.ids.correlation } },
    fun h => { h with version := header.version }] ?_ rfl (by simp) (by simp) hb (by simp [field])
  exact .cons ⟨_, rfl, finds_field (finds_string _)⟩ <|
    .cons ⟨_, rfl, finds_field (finds_string _)⟩ <|
    .cons ⟨_, rfl, finds_field (finds_string _)⟩ <|
    .cons ⟨_, rfl, finds_field (finds_string _)⟩ <|
    .cons ⟨_, rfl, finds_field (finds_string _)⟩ .nil

theorem finds_scope (depth : Nat) (scope : Scope) (hb : 2 ≤ budget) :
    Json.Finds (decoder.scope budget (depth + 1))
      (Value.object [("type", .string scope.kind), ("token", .string scope.token)]).printed
      (some scope) := by
  unfold decoder.scope
  refine finds_record [fun x => { x with kind := scope.kind },
    fun x => { x with token := scope.token }] ?_ rfl (by simp) (by simp) hb (by simp [field])
  exact .cons ⟨_, rfl, finds_field (finds_string _)⟩ <|
    .cons ⟨_, rfl, finds_field (finds_string _)⟩ .nil

/-- The endpoints of an event can be read with so many brackets left. -/
def Readable (depth : Nat) (e : Event) : Prop :=
  ∀ v ∈ e.endpoints, v.Ordered ∧ v.Fits Number.Stable depth

theorem finds_payload (e : Event) (he : e.Readable depth) (hroom : 2 ≤ budget)
    (hb : (Value.array e.endpoints).printed.length ≤ budget) :
    Json.Finds (decoder.payload budget (depth + 2))
      (Value.object [("scope", .object [("type", .string e.scope.kind),
        ("token", .string e.scope.token)]), ("endpoints", .array e.endpoints)]).printed
      (some { e with header := default }) := by
  have hscope := finds_scope depth e.scope hroom
  have hendpoints := finds_listOf_any (fun v hv => (he v hv).1) (fun v hv => (he v hv).2) hb
  unfold decoder.payload
  refine finds_record [fun p => { p with scope := e.scope },
    fun p => { p with endpoints := e.endpoints }] (.cons ?_ (.cons ?_ .nil)) rfl (by simp) (by simp)
    hroom (by simp [field])
  · refine ⟨_, rfl, finds_field ?_⟩
    exact hscope
  · refine ⟨_, rfl, finds_field ?_⟩
    exact hendpoints

theorem finds_event (e : Event) (he : e.Readable depth) (hb : e.value.printed.length ≤ budget) :
    Json.Finds (decoder budget (depth + 4)) e.value.printed (some e) := by
  have hsize : (Value.array e.endpoints).printed.length + 5 ≤ e.value.printed.length := by
    simp only [value, Value.printed, Value.printedMembers, List.length_append, List.length_cons]
    omega
  have hheader := finds_header (depth + 1) e.header (show 5 ≤ budget by omega)
  have hpayload := finds_payload e he (show 2 ≤ budget by omega) (by omega)
  unfold decoder
  refine finds_record [fun _ => e] (.cons ⟨_, rfl, finds_field ?_⟩ .nil) rfl (by simp) (by simp)
    (show 1 ≤ budget by omega) (by simp [field])
  unfold decoder.body
  refine finds_record [fun b => { b with header := e.header },
    fun b => { e with header := b.header }] (.cons ?_ (.cons ?_ .nil)) rfl (by simp) (by simp)
    (show 2 ≤ budget by omega) (by simp [field])
  · refine ⟨_, rfl, finds_field ?_⟩
    exact hheader
  · refine ⟨_, rfl, finds_field (x := { e with header := default }) ?_⟩
    exact hpayload

/-- An event whose endpoints leave four brackets is read back as it was. -/
theorem run_decoder {e : Event} (he : e.Readable (Json.maxDepth - 4)) :
    decoder.run e.text = .ok e := by
  have hfinds := finds_event e he (Nat.le_refl _) [] Json.ends_nil
  rw [List.append_nil] at hfinds
  have hread : decoder e.value.printed.length Json.maxDepth e.value.printed = .ok (e, []) :=
    Json.toOption_eq_some_iff.mp hfinds
  rw [Json.Decoder.run, text, Value.toList_text, hread]
  rfl

end Event

/-! ## Configs of this library -/

/-- A config that is written here: from a descriptor whose further members hold no floats,
however deep they are, or to withdraw an endpoint. -/
inductive Config.Written : Config → Prop where
  | endpoint {a : Attributes} {capabilities : List Capability} {c : Config} {depth : Nat}
      (h : build a capabilities = .ok c)
      (hintegers : ∀ cap ∈ capabilities, cap.FurtherFit Number.IsInteger depth) : Written c
  | withdrawal (id : String) : Written (withdrawal id)

theorem Config.Written.faithful {c : Config} (h : c.Written) : c.Faithful := by
  cases h with
  | endpoint h hintegers =>
    exact faithful_of_build h fun cap hcap => (hintegers cap hcap).stable
  | withdrawal id => exact faithful_withdrawal id

namespace Event

/-- The endpoints of an event that withdraws some. -/
def withdrawnValues (endpointIds : List String) : List Value :=
  endpointIds.map fun id => .object [("endpointId", .string id)]

theorem build_withdrawals (endpointIds : List String) (token : String) (ids : EventIds) :
    Event.build .delete (endpointIds.map Config.withdrawal) token ids =
      .ok (around .delete token ids (withdrawnValues endpointIds)) := by
  refine build_eq_ok_iff.mpr ⟨_, ?_, rfl⟩
  rw [withdrawnValues, List.forall₂_map_left_iff, List.forall₂_map_right_iff, List.forall₂_same]
  exact fun id _ => Config.parse_withdrawal id

theorem readable_withdrawals (endpointIds : List String) (token : String) (ids : EventIds) :
    (around .delete token ids (withdrawnValues endpointIds)).Readable (Json.maxDepth - 4) := by
  have hdepth : Json.maxDepth - 4 = 122 + 1 := rfl
  intro v hv
  obtain ⟨id, -, rfl⟩ := List.mem_map.mp hv
  rw [hdepth]
  simp [Value.ordered_object]

theorem endpointIds_withdrawals (endpointIds : List String) (token : String) (ids : EventIds) :
    (around .delete token ids (withdrawnValues endpointIds)).endpointIds = endpointIds := by
  show (withdrawnValues endpointIds).filterMap _ = endpointIds
  rw [withdrawnValues, List.filterMap_map]
  exact List.filterMap_some

/-- **What is sent is byte for byte what is stored.** Of configs that are written here, an event
that can be built is the fixed envelope around their texts in the given order, and its header
has the identifiers that were minted for it. The event that withdraws some endpoints can be
built; it is read back as it was, and the ids of its endpoints are those that were given. -/
theorem envelope_build (token : String) (ids : EventIds) :
    (∀ kind configs e, (∀ c ∈ configs, Config.Written c) →
      Event.build kind configs token ids = .ok e →
      e.text = envelope kind token ids (configs.map Config.text) ∧ e.header.ids = ids) ∧
    ∀ endpointIds, ∃ e,
      Event.build .delete (endpointIds.map Config.withdrawal) token ids = .ok e ∧
      e.text = envelope .delete token ids (endpointIds.map fun id => (Config.withdrawal id).text) ∧
      e.header.ids = ids ∧ decoder.run e.text = .ok e ∧ e.endpointIds = endpointIds := by
  have hverbatim : ∀ kind configs e, (∀ c ∈ configs, Config.Written c) →
      Event.build kind configs token ids = .ok e →
      e.text = envelope kind token ids (configs.map Config.text) ∧ e.header.ids = ids :=
    fun _ _ _ hwritten h => text_of_faithful (fun c hc => (hwritten c hc).faithful) h
  refine ⟨hverbatim, fun endpointIds => ?_⟩
  have hbuild := build_withdrawals endpointIds token ids
  obtain ⟨htext, hids⟩ := hverbatim _ _ _
    (List.forall_mem_map.mpr fun id _ => .withdrawal id) hbuild
  rw [List.map_map] at htext
  exact ⟨_, hbuild, htext, hids, run_decoder (readable_withdrawals endpointIds token ids),
    endpointIds_withdrawals endpointIds token ids⟩

/-- A further member with integers, under a key that is escaped. -/
def integers : String := "\x7b\"k\\n\":[2,-1]\x7d"

theorem furtherFit_integers (depth : Nat) :
    (Capability.configured integers).FurtherFit Number.IsInteger (depth + 2) := by
  have hread : Json.parse integers =
      .ok (.object [("k\n", .array [.number (.integer 2), .number (.integer (-1))])]) := rfl
  exact (furtherFit_configured hread).mpr (by simp [Number.IsInteger])

/-- An endpoint with that member, and the withdrawal of another one, in one event. -/
theorem envelope_integers :
    ∃ c e, Config.build .lamp [.configured integers] = .ok c ∧
      Event.build .addOrUpdate [c, .withdrawal "é\""] "to\"ken" (Uuid.eventIds 0) = .ok e ∧
      e.text = envelope .addOrUpdate "to\"ken" (Uuid.eventIds 0)
        [c.text, "\x7b\"endpointId\":\"é\\\"\"\x7d"] := by
  obtain ⟨c, hc⟩ : ∃ c, Config.build .lamp [.configured integers] = .ok c := ⟨_, rfl⟩
  have hlegible : ∀ cap ∈ [Capability.configured integers],
      cap.FurtherFit Number.Legible Config.furtherDepth := List.forall_mem_singleton.mpr
    ((furtherFit_integers 122).stable.imp fun _ hn => hn.legible)
  have hreads : ∀ d ∈ [c, Config.withdrawal "é\""],
      (Json.parse d.text).toOption.isSome = true := by
    refine List.forall_mem_cons.mpr ⟨(Config.isSome_read_iff hc).mpr hlegible,
      List.forall_mem_singleton.mpr ?_⟩
    rw [Config.parse_withdrawal]
    rfl
  obtain ⟨e, he⟩ := exists_build_iff.mpr hreads
  have hintegers : ∀ cap ∈ [Capability.configured integers],
      cap.FurtherFit Number.IsInteger 2 := List.forall_mem_singleton.mpr (furtherFit_integers 0)
  have hwritten : ∀ d ∈ [c, Config.withdrawal "é\""], Config.Written d :=
    List.forall_mem_cons.mpr ⟨.endpoint hc hintegers,
      List.forall_mem_singleton.mpr (.withdrawal _)⟩
  exact ⟨c, e, hc, he,
    ((envelope_build "to\"ken" (Uuid.eventIds 0)).1 .addOrUpdate _ e hwritten he).1⟩

end Event

end Announcer
