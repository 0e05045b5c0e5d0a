import Announcer.Proofs.Store.Rows
import Announcer.Store
/-!
# A store is a map

To its users a store is an `Archive`: a map that was created or was not, and a
flag that says whether it is open. A durable one keeps its map when it is closed, created
again or opened; one in memory starts with an empty map whenever it is created, and
cannot be opened.

`Store.archive` reads this off a store, and `Sound` is what the operations keep: a database
that exists has its table, the table has one row for each endpoint, and an open store has
a database.

Results: `refines_step` for one command, `refines_run` for a list of them, and `archive_run`
from the start.
-/
namespace Announcer

/-- What is asked of a store. -/
inductive StoreCommand where
  | create
  | openExisting
  | close
  | store (id : String) (config : Config)
  | storeAll (configs : Configs)
  | load (id : String)
  | loadAll
  | erase (id : String)
  | eraseAll (ids : List String)
  | clear
  deriving DecidableEq, Repr

/-- What a store says. -/
inductive StoreAnswer where
  | done
  | config (config : Option Config)
  | configs (configs : Configs)
  deriving DecidableEq, Repr

/-- What is said to a list of commands, and what is there afterwards. -/
def converse {σ : Type} (step : σ → StoreCommand → Except StoreError StoreAnswer × σ) (s : σ) :
    List StoreCommand → List (Except StoreError StoreAnswer) × σ
  | [] => ([], s)
  | c :: commands =>
    let rest := converse step (step s c).2 commands
    ((step s c).1 :: rest.1, rest.2)

/-! ## Archives -/

/-- A map, and whether it can be used. -/
structure Archive where
  durable : Bool
  /-- None as long as it was not created. -/
  contents : Option Configs
  isOpen : Bool
  deriving DecidableEq, Repr

namespace Archive

/-- Nothing was created yet. -/
def start (durable : Bool) : Archive := ⟨durable, none, false⟩

/-- Asks an open archive something, which may change the map. -/
def use (a : Archive) (ask : Configs → StoreAnswer × Configs) :
    Except StoreError StoreAnswer × Archive :=
  if a.isOpen then
    let (answer, contents) := ask (a.contents.getD ∅)
    (.ok answer, { a with contents := some contents })
  else (.error .notOpen, a)

def step (a : Archive) : StoreCommand → Except StoreError StoreAnswer × Archive
  | .create =>
    (.ok .done, { a with
      contents := some (if a.durable then a.contents.getD ∅ else ∅), isOpen := true })
  | .openExisting =>
    if !a.durable then (.error Store.noTable, a)
    else if a.contents.isNone then (.error Store.noFile, a)
    else (.ok .done, { a with isOpen := true })
  | .close =>
    (.ok .done, { a with contents := if a.durable then a.contents else none, isOpen := false })
  | .store id config => a.use fun m => (.done, m.insert id config)
  | .storeAll configs =>
    a.use fun m => (.done, configs.entries.foldl (fun m e => m.insert e.1 e.2) m)
  | .load id => a.use fun m => (.config (m.get? id), m)
  | .loadAll => a.use fun m => (.configs m, m)
  | .erase id => a.use fun m => (.done, m.erase id)
  | .eraseAll ids => a.use fun m => (.done, m.filter fun id _ => id ∉ ids)
  | .clear => a.use fun _ => (.done, ∅)

end Archive

/-! ## What a connection is asked -/
namespace Connected

/-- Storing nothing is no exception. -/
theorem upsertAll_of_open (configs : Configs) (rows : Rows) :
    upsertAll ⟨⟨some rows⟩, true⟩ configs = .ok ((), ⟨⟨some (rows.upsertAll configs)⟩, true⟩) := by
  unfold upsertAll
  split
  · next hempty =>
    have hnone : configs.entries = [] := List.isEmpty_iff.mp hempty
    rw [Rows.upsertAll, hnone]
    rfl
  · rfl

/-- Erasing nothing is no exception. -/
theorem deleteAll_of_open (ids : List String) (rows : Rows) :
    deleteAll ⟨⟨some rows⟩, true⟩ ids =
      .ok ((rows.deleteAll ids).1, ⟨⟨some (rows.deleteAll ids).2⟩, true⟩) := by
  unfold deleteAll
  split
  · next hempty =>
    rw [List.isEmpty_iff.mp hempty]
    rfl
  · rfl

end Connected

/-! ## Stores -/
namespace Store

/-- An answer and the store behind it; a store that fails stays as it is. -/
def settle {α : Type} (s : Store) (say : α → StoreAnswer) :
    Result α → Except StoreError StoreAnswer × Store
  | .ok (answer, s') => (.ok (say answer), s')
  | .error e => (.error e, s)

def step (s : Store) : StoreCommand → Except StoreError StoreAnswer × Store
  | .create => s.settle (fun _ => .done) s.create
  | .openExisting => s.settle (fun _ => .done) s.openExisting
  | .close => (.ok .done, s.close)
  | .store id config => s.settle (fun _ => .done) (s.store id config)
  | .storeAll configs => s.settle (fun _ => .done) (s.storeAll configs)
  | .load id => s.settle .config (s.load id)
  | .loadAll => s.settle .configs s.loadAll
  | .erase id => s.settle (fun _ => .done) (s.erase id)
  | .eraseAll ids => s.settle (fun _ => .done) (s.eraseAll ids)
  | .clear => s.settle (fun _ => .done) s.clear

/-- What a store is to its users. -/
def archive (s : Store) : Archive where
  durable := s.medium = .file
  contents := (s.database.bind Database.table).map Rows.configs
  isOpen := s.isOpen

/-- What the operations keep. -/
structure Sound (s : Store) : Prop where
  reachable : s.medium ≠ .unreachable
  tabled : ∀ d, s.database = some d → ∃ rows : Rows, d = ⟨some rows⟩ ∧ rows.Keyed
  opened : s.isOpen = true → s.database.isSome

theorem sound_start {medium : Medium} (h : medium ≠ .unreachable) : Sound (.start medium) where
  reachable := h
  tabled := by intro d hd; cases hd
  opened := by intro ho; cases ho

/-- A step and what it is to the users. -/
structure Refines (s : Store) (r : Except StoreError StoreAnswer × Store)
    (a : Except StoreError StoreAnswer × Archive) : Prop where
  answer : r.1 = a.1
  archive : r.2.archive = a.2
  sound : r.2.Sound

variable {s : Store}

/-- What is asked of the rows is asked of their map. -/
theorem refines_use {α : Type} (h : s.Sound) (ask : Connected → Connected.Result α)
    (say : α → StoreAnswer) (look : Configs → StoreAnswer × Configs)
    (hask : ∀ rows : Rows, rows.Keyed → ∃ answer, ∃ rows' : Rows, rows'.Keyed ∧
      ask ⟨⟨some rows⟩, true⟩ = .ok (answer, ⟨⟨some rows'⟩, true⟩) ∧
      look rows.configs = (say answer, rows'.configs)) :
    Refines s (s.settle say (s.use ask)) (s.archive.use look) := by
  obtain ⟨medium, database, isOpen⟩ := s
  cases isOpen with
  | false => exact ⟨rfl, rfl, h⟩
  | true =>
    obtain ⟨d, rfl⟩ := Option.isSome_iff_exists.mp (h.opened rfl)
    obtain ⟨rows, rfl, hrows⟩ := h.tabled d rfl
    obtain ⟨answer, rows', hrows', hok, hlook⟩ := hask rows hrows
    have huse : Store.use ⟨medium, some ⟨some rows⟩, true⟩ ask =
        .ok (answer, ⟨medium, some ⟨some rows'⟩, true⟩) := by
      simp [use, hok, Except.map]
    have hlook' : (archive ⟨medium, some ⟨some rows⟩, true⟩).use look =
        (.ok (say answer), archive ⟨medium, some ⟨some rows'⟩, true⟩) := by
      simp [Archive.use, archive, hlook]
    rw [huse, hlook']
    refine ⟨rfl, rfl, h.reachable, ?_, fun _ => rfl⟩
    intro d hd
    cases hd
    exact ⟨rows', rfl, hrows'⟩

theorem refines_create (h : s.Sound) : Refines s (s.step .create) (s.archive.step .create) := by
  have hfresh : ∀ rows : Rows, rows.Keyed →
      Sound ⟨s.medium, some ⟨some rows⟩, true⟩ := by
    intro rows hrows
    refine ⟨h.reachable, ?_, fun _ => rfl⟩
    intro d hd
    cases hd
    exact ⟨rows, rfl, hrows⟩
  obtain ⟨medium, database, isOpen⟩ := s
  cases medium with
  | unreachable => exact absurd rfl h.reachable
  | volatile => exact ⟨rfl, rfl, hfresh [] Rows.keyed_nil⟩
  | file =>
    cases database with
    | none => exact ⟨rfl, rfl, hfresh [] Rows.keyed_nil⟩
    | some d =>
      obtain ⟨rows, rfl, hrows⟩ := h.tabled d rfl
      exact ⟨rfl, rfl, hfresh rows hrows⟩

theorem refines_openExisting (h : s.Sound) :
    Refines s (s.step .openExisting) (s.archive.step .openExisting) := by
  obtain ⟨medium, database, isOpen⟩ := s
  cases medium with
  | unreachable => exact absurd rfl h.reachable
  | volatile => exact ⟨rfl, rfl, h⟩
  | file =>
    cases database with
    | none => exact ⟨rfl, rfl, h⟩
    | some d =>
      obtain ⟨rows, rfl, hrows⟩ := h.tabled d rfl
      exact ⟨rfl, rfl, h.reachable, h.tabled, fun _ => rfl⟩

theorem refines_close (h : s.Sound) : Refines s (s.step .close) (s.archive.step .close) := by
  obtain ⟨medium, database, isOpen⟩ := s
  cases medium with
  | unreachable => exact absurd rfl h.reachable
  | volatile => exact ⟨rfl, rfl, h.reachable, by simp [step, close], by simp [step, close]⟩
  | file => exact ⟨rfl, rfl, h.reachable, h.tabled, by simp [step, close]⟩

/-- Whatever is asked, a store answers as the map that it is, and stays it. -/
theorem refines_step (h : s.Sound) (c : StoreCommand) :
    Refines s (s.step c) (s.archive.step c) := by
  cases c with
  | create => exact refines_create h
  | openExisting => exact refines_openExisting h
  | close => exact refines_close h
  | store id config =>
    refine refines_use h (·.upsert id config) (fun _ => .done)
      (fun m => (.done, m.insert id config)) fun rows hrows => ?_
    exact ⟨(), _, Rows.keyed_upsert hrows id config, rfl, by rw [Rows.configs_upsert hrows]⟩
  | storeAll configs =>
    refine refines_use h (·.upsertAll configs) (fun _ => .done)
      (fun m => (.done, configs.entries.foldl (fun m e => m.insert e.1 e.2) m))
      fun rows hrows => ?_
    obtain ⟨hkeyed, hall⟩ := Rows.upsertAll_spec hrows configs
    exact ⟨(), _, hkeyed, Connected.upsertAll_of_open configs rows, by rw [hall]⟩
  | load id =>
    refine refines_use h (·.get? id) .config (fun m => (.config (m.get? id), m))
      fun rows hrows => ?_
    exact ⟨_, rows, hrows, rfl, by rw [Rows.get?_configs hrows]⟩
  | loadAll =>
    exact refines_use h (·.getAll) .configs (fun m => (.configs m, m))
      fun rows hrows => ⟨_, rows, hrows, rfl, rfl⟩
  | erase id =>
    refine refines_use h (fun c => (c.delete id).map fun p => ((), p.2)) (fun _ => .done)
      (fun m => (.done, m.erase id)) fun rows hrows => ?_
    exact ⟨(), _, Rows.keyed_delete hrows id, rfl, by rw [Rows.configs_delete hrows]⟩
  | eraseAll ids =>
    refine refines_use h (fun c => (c.deleteAll ids).map fun p => ((), p.2)) (fun _ => .done)
      (fun m => (.done, m.filter fun id _ => id ∉ ids)) fun rows hrows => ?_
    refine ⟨(), _, Rows.keyed_deleteAll hrows ids, ?_, by rw [Rows.configs_deleteAll hrows]⟩
    rw [Connected.deleteAll_of_open]
    rfl
  | clear =>
    exact refines_use h (fun c => c.clear.map fun p => ((), p.2)) (fun _ => .done)
      (fun _ => (.done, ∅)) fun rows _ => ⟨(), [], Rows.keyed_nil, rfl, rfl⟩

/-! ## Runs -/

/-- A run and what it is to the users. -/
theorem refines_run (h : s.Sound) (commands : List StoreCommand) :
    (converse step s commands).1 = (converse Archive.step s.archive commands).1 ∧
      (converse step s commands).2.archive = (converse Archive.step s.archive commands).2 ∧
      (converse step s commands).2.Sound := by
  induction commands generalizing s with
  | nil => exact ⟨rfl, rfl, h⟩
  | cons c commands ih =>
    obtain ⟨hanswer, harchive, hsound⟩ := refines_step h c
    obtain ⟨hanswers, hlast, hend⟩ := ih hsound
    rw [harchive] at hanswers hlast
    exact ⟨by rw [converse, converse, hanswer, hanswers], hlast, hend⟩

/-- A connection counts each listed endpoint of the map once, however often it is listed. -/
theorem count_deleteAll (h : s.Sound) {d : Database} (hd : s.database = some d)
    (ids : List String) :
    (Connected.deleteAll ⟨d, true⟩ ids).map Prod.fst =
      .ok ((s.archive.contents.getD ∅).filter fun id _ => id ∈ ids).size := by
  obtain ⟨rows, rfl, hrows⟩ := h.tabled d hd
  have hcontents : s.archive.contents = some rows.configs := by simp [archive, hd]
  rw [Connected.deleteAll_of_open, hcontents, Option.getD_some, ← Rows.fst_deleteAll hrows]
  rfl

/-- From the start on a store answers everything that it is asked as a map with a flag
does, and what it holds is that map. What its database counts when it takes
endpoints out is how many of them are in the map. -/
theorem archive_run (durable : Bool) (commands : List StoreCommand) :
    let last := converse step (.start (if durable then .file else .volatile)) commands
    let archived := converse Archive.step (.start durable) commands
    last.1 = archived.1 ∧ last.2.archive = archived.2 ∧
      ∀ d, last.2.database = some d → ∀ ids : List String,
        (Connected.deleteAll ⟨d, true⟩ ids).map Prod.fst =
          .ok ((archived.2.contents.getD ∅).filter fun id _ => id ∈ ids).size := by
  intro last archived
  have hmedium : (if durable then Medium.file else .volatile) ≠ .unreachable := by
    cases durable <;> decide
  have hstart : archive (.start (if durable then .file else .volatile)) = .start durable := by
    cases durable <;> rfl
  obtain ⟨hanswers, hlast, hsound⟩ := refines_run (sound_start hmedium) commands
  rw [hstart] at hanswers hlast
  refine ⟨hanswers, hlast, fun d hd ids => ?_⟩
  rw [count_deleteAll hsound hd ids, hlast]

example :
    (converse step (.start .file)
      [.openExisting, .create, .store "a" ⟨"1"⟩, .close, .load "a", .openExisting, .load "a"]).1 =
    [.error noFile, .ok .done, .ok .done, .ok .done, .error .notOpen, .ok .done,
      .ok (.config (some ⟨"1"⟩))] := rfl

end Store

end Announcer
