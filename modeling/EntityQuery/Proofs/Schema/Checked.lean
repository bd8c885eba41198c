import Mathlib.Data.List.Forall2
import Mathlib.Data.List.Nodup
import EntityQuery.Proofs.Chain
import EntityQuery.Schema.Build

/-! What the checks on definitions leave.

A schema is built from a draft that holds the definitions of all sources in their order, whose
names differ in lower case, whose bases are among them and whose chains of bases end (`Checked`).
There is a schema exactly when there is such a draft and every entity of it can be built
(`build_eq_ok`). A definition is then known by its name: looking one up finds the only position
where it can stand (`Based.find?_eq_some`). -/
namespace EntityQuery.Schema

open Mapping (Document EntityDef)

variable {sources : List (String × Document)} {s : Schema} {d : Draft} {id : Nat}

/-- The definitions of all sources, in the order of the sources and of each document. -/
def definitions (sources : List (String × Document)) : List EntityDef :=
  sources.flatMap (·.2.entities)

/-- The definitions with the names of their sources. -/
def entries (sources : List (String × Document)) : List (String × EntityDef) :=
  sources.flatMap fun (name, document) => document.entities.map (name, ·)

theorem map_entries (sources : List (String × Document)) :
    (entries sources).map Prod.snd = definitions sources := by
  simp [entries, definitions, List.map_flatMap, Function.comp_def]

/-- The names of definitions as they are looked up. -/
def lowerNames (defs : List (String × EntityDef)) : List (List Char) :=
  defs.map fun entry => Text.lower entry.2.name

/-- A draft that passed the checks of names and bases. -/
structure Based (sources : List (String × Document)) (d : Draft) : Prop where
  defs : d.defs = entries sources
  distinct : (lowerNames d.defs).Nodup
  bases : List.Forall₂ (fun entry base => d.baseOf entry.2 = .ok base) d.defs d.bases

/-- A draft that passed the checks of names, bases and cycles. -/
structure Checked (sources : List (String × Document)) (d : Draft) : Prop
    extends Based sources d where
  ends : ∀ id < d.defs.length, d.ends id d.defs.length = true

namespace Draft

/-! ### The checks -/

theorem add_eq_ok {defs : List (String × EntityDef)} {entry : String × EntityDef} {d' : Draft} :
    (Draft.mk defs []).add entry = .ok d' ↔
      Text.lower entry.2.name ∉ lowerNames defs ∧ d' = ⟨defs ++ [entry], []⟩ := by
  unfold add
  dsimp only
  cases htaken : defs.find? fun earlier => Text.sameLower earlier.2.name entry.2.name with
  | some earlier =>
    have hname := List.find?_some htaken
    have hmem : Text.lower entry.2.name ∈ lowerNames defs :=
      List.mem_map.2 ⟨earlier, List.mem_of_find?_eq_some htaken, Text.sameLower_iff.1 hname⟩
    simp [hmem]
  | none =>
    have hfree : Text.lower entry.2.name ∉ lowerNames defs := by
      intro hmem
      obtain ⟨earlier, hearlier, hname⟩ := List.mem_map.1 hmem
      exact List.find?_eq_none.1 htaken earlier hearlier (Text.sameLower_iff.2 hname)
    simp [hfree, eq_comm]

theorem ofSources_eq_ok : ofSources sources = .ok d ↔
    (lowerNames (entries sources)).Nodup ∧ d = ⟨entries sources, []⟩ :=
  Except.foldlM_distinct (fun defs : List (String × EntityDef) => Draft.mk defs [])
    (fun entry => Text.lower entry.2.name) (fun _ _ _ => add_eq_ok) List.nodup_nil

theorem checkCycles_eq_ok : d.checkCycles = .ok () ↔
    ∀ id < d.defs.length, d.ends id d.defs.length = true := by
  unfold checkCycles
  cases hfound : (List.range d.defs.length).find? fun id => !d.ends id d.defs.length with
  | some id =>
    have hid := List.mem_range.1 (List.mem_of_find?_eq_some hfound)
    have hends := List.find?_some hfound
    simp only [reduceCtorEq, false_iff]
    exact fun hall => by simp [hall id hid] at hends
  | none =>
    simp only [true_iff]
    intro id hid
    simpa using List.find?_eq_none.1 hfound id (List.mem_range.2 hid)

end Draft

/-- There is a schema exactly when the definitions pass the checks and all entities can be
built. -/
theorem build_eq_ok : build sources = .ok s ↔
    ∃ d, Checked sources d ∧ (List.range d.defs.length).mapM d.entity = .ok s.entities := by
  simp only [build, Draft.withBases, Except.bind_eq_ok, Except.pure_eq_ok, Draft.ofSources_eq_ok,
    Except.mapM_eq_ok (f := fun entry : String × EntityDef => Draft.baseOf _ entry.2)]
  constructor
  · rintro ⟨_, ⟨hdistinct, rfl⟩, _, ⟨bases, hbases, rfl⟩, _, hcycles, entities, hentities, rfl⟩
    exact ⟨_, ⟨⟨rfl, hdistinct, hbases⟩, Draft.checkCycles_eq_ok.1 hcycles⟩, hentities⟩
  · rintro ⟨d, hc, hentities⟩
    obtain ⟨defs, bases⟩ := d
    obtain rfl : defs = entries sources := hc.defs
    exact ⟨_, ⟨hc.distinct, rfl⟩, _, ⟨bases, hc.bases, rfl⟩, (), Draft.checkCycles_eq_ok.2 hc.ends,
      s.entities, hentities, rfl⟩

/-! ### Definitions by name -/

namespace Draft

theorem definition_eq (hid : id < d.defs.length) : d.definition id = d.defs[id].2 := by
  simp [definition, hid]

/-- A name that is found is that of the definition found, up to case. -/
theorem find?_some {name : String} (h : d.find? name = some id) :
    id < d.defs.length ∧ Text.lower (d.definition id).name = Text.lower name := by
  obtain ⟨hid, hname, -⟩ := List.findIdx?_eq_some_iff_getElem.1 h
  rw [definition_eq hid]
  exact ⟨hid, Text.sameLower_iff.1 hname⟩

end Draft

namespace Based

/-- Two positions hold definitions of one name only when they are the same. -/
theorem position_unique (hd : Based sources d) {id' : Nat} (hid : id < d.defs.length)
    (hid' : id' < d.defs.length)
    (h : Text.lower (d.definition id).name = Text.lower (d.definition id').name) : id = id' := by
  refine (List.getElem?_inj (by simpa [lowerNames] using hid) hd.distinct).1 ?_
  simpa [lowerNames, Draft.definition_eq, hid, hid'] using h

theorem find?_eq_some (hd : Based sources d) {name : String} : d.find? name = some id ↔
    id < d.defs.length ∧ Text.lower (d.definition id).name = Text.lower name := by
  refine ⟨Draft.find?_some, fun ⟨hid, hname⟩ => ?_⟩
  cases hfound : d.find? name with
  | none =>
    have habsent := List.findIdx?_eq_none_iff.1 hfound _ (List.getElem_mem hid)
    rw [← Draft.definition_eq hid, Text.sameLower_iff.2 hname] at habsent
    simp at habsent
  | some other =>
    obtain ⟨hother, hname'⟩ := Draft.find?_some hfound
    rw [hd.position_unique hother hid (hname'.trans hname.symm)]

/-- The base of an entity is the one that its definition names. -/
theorem baseOf_definition (hd : Based sources d) (hid : id < d.defs.length) :
    d.baseOf (d.definition id) = .ok (d.base? id) := by
  have hlength : id < d.bases.length := hd.bases.length_eq ▸ hid
  rw [Draft.definition_eq hid, Draft.base?, List.getElem?_eq_getElem hlength]
  exact hd.bases.get hid hlength

theorem base?_eq_bind (hd : Based sources d) (hid : id < d.defs.length) :
    d.base? id = (d.definition id).base.bind d.find? := by
  have h := hd.baseOf_definition hid
  unfold Draft.baseOf at h
  cases hbase : (d.definition id).base with
  | none =>
    rw [hbase] at h
    exact (Except.ok.inj h).symm
  | some name =>
    rw [Option.bind_some]
    cases hfound : d.find? name with
    | none => simp [hbase, hfound] at h
    | some base =>
      simp only [hbase, hfound] at h
      exact (Except.ok.inj h).symm

theorem base?_lt (hd : Based sources d) {base : Nat} (hid : id < d.defs.length)
    (h : d.base? id = some base) : base < d.defs.length := by
  rw [hd.base?_eq_bind hid, Option.bind_eq_some_iff] at h
  obtain ⟨name, -, hfound⟩ := h
  exact (Draft.find?_some hfound).1

end Based

end EntityQuery.Schema
