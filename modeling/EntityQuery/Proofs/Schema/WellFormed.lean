import EntityQuery.Plan.Layout
import EntityQuery.Proofs.Schema.Lineage
import EntityQuery.Proofs.Text.Lowering

/-! Well-formed schemas.

What the engine takes for granted of a schema: positions and names identify entities, chains of
bases end, members of an entity are told apart by their names, every navigation leads to an entity
over columns that both sides have, an entity has one navigation to its base over the whole of both
keys, and a key that is not declared is that of the nearest ancestor with one. Every schema that
is built has all of it, whatever the documents (`build_wellFormed`). -/
namespace EntityQuery

open Mapping (Document EntityDef)

/-- A property of this name, which is also the one that its column is looked up by. -/
structure Entity.HasColumn (e : Entity) (name : String) (p : Property) : Prop where
  mem : p ∈ e.properties
  named : p.name = name
  column : e.columnOf name = p.column

/-- A navigation that leads from an entity over columns to another. -/
structure Navigation.Sound (s : Schema) (e : Entity) (n : Navigation) : Prop where
  target : n.target < s.entities.length
  keyed : n.keys ≠ []
  source : ∀ pair ∈ n.keys, ∃ p, e.HasColumn pair.source p
  found : ∀ pair ∈ n.keys, ∃ p, (s.entity n.target).HasColumn pair.target p

/-- The navigation to the base pairs the two keys, property by property. -/
structure Navigation.ToBase (s : Schema) (e : Entity) (base : Nat) (n : Navigation) : Prop where
  target : n.target = base
  name : n.name = (s.entity base).name
  kind : n.kind = .inner
  sources : n.keys.map (·.source) = e.keys.map (·.name)
  targets : n.keys.map (·.target) = (s.entity base).keys.map (·.name)

/-- An entity followed by its ancestors, none left out and none twice. -/
structure Schema.IsLineage (s : Schema) (e : Entity) (lineage : List Entity) : Prop where
  start : lineage.head? = some e
  climbs : lineage.IsChain fun a b => s.base? a = some b
  ends : ∀ a ∈ lineage.getLast?, a.base = none
  once : (lineage.map (·.id)).Nodup

/-- A schema in good order, as these definitions describe it. -/
structure Schema.WellFormed (definitions : List EntityDef) (s : Schema) : Prop where
  names : s.entities.map (·.name) = definitions.map (·.name)
  ids : s.entities.map (·.id) = List.range s.entities.length
  /-- A name finds an entity exactly when it is its name in lower case. -/
  found : ∀ name e, s.entity? name = some e ↔
    e ∈ s.entities ∧ Text.lower e.name = Text.lower name
  bases : ∀ e ∈ s.entities, ∀ base ∈ e.base, base < s.entities.length
  acyclic : ∀ id, ¬ Relation.TransGen s.IsBase id id
  lineage : ∀ e ∈ s.entities, s.IsLineage e (s.lineage e)
  properties : ∀ e ∈ s.entities, e.properties.Pairwise fun p q =>
    Text.sameLower p.name q.name = false ∧ Text.sameName p.name q.name = false
  apart : ∀ e ∈ s.entities, ∀ p ∈ e.properties, ∀ n ∈ e.navigations,
    Text.sameLower p.name n.name = false ∧ Text.sameName p.name n.name = false
  navigations : ∀ e ∈ s.entities, ∀ n ∈ e.navigations, n.Sound s e
  /-- A join is made on its keys: the condition that is never true is not needed. -/
  joins : ∀ e ∈ s.entities, ∀ n ∈ e.navigations, ∀ (l : Plan.Layout) host j,
    Plan.navigationOf l.graph j = n →
      Sql.Expr.allOf? (Plan.joinConditions s l host j) = some (Plan.join s l host j).on
  root : ∀ e ∈ s.entities, e.base = none → e.navigations.filter (·.inheritance) = []
  inherits : ∀ e ∈ s.entities, ∀ base ∈ e.base, ∃ n,
    e.navigations.filter (·.inheritance) = [n] ∧ n.ToBase s e base
  declaredKeys : ∀ e ∈ s.entities, e.declaresKeys definitions = true →
    e.keys = (definitions.getD e.id {}).keys.map Draft.keyOf
  inheritedKeys : ∀ e ∈ s.entities, e.declaresKeys definitions = false → e.base ≠ none →
    ∃ owner, (s.lineage e).tail.find? (·.declaresKeys definitions) = some owner ∧
      e.keys = owner.keys.map Property.inherited

/-- A join on keys has its condition from them. -/
theorem Plan.allOf?_joinConditions {s : Schema} {l : Plan.Layout} {host : Option String} {j : Nat}
    (h : (Plan.navigationOf l.graph j).keys ≠ []) :
    Sql.Expr.allOf? (Plan.joinConditions s l host j) = some (Plan.join s l host j).on := by
  have hne : Plan.joinConditions s l host j ≠ [] := by simp [Plan.joinConditions, h]
  rw [Plan.join]
  match hes : Plan.joinConditions s l host j with
  | [] => exact absurd hes hne
  | [e] => rfl
  | e :: e' :: es => rfl

namespace Schema

variable {sources : List (String × Document)} {s : Schema} {d : Draft} {id : Nat}

/-! ### Names -/

/-- Texts that differ in lower case differ in ASCII case. -/
theorem sameName_of_not_sameLower {a b : String} (h : Text.sameLower a b = false) :
    Text.sameName a b = false :=
  Bool.eq_false_iff.2 fun hname => by simp [Text.sameLower_of_sameName hname] at h

theorem pairwise_of_nodup {properties : List Property}
    (h : (Draft.lowerMembers properties).Nodup) : properties.Pairwise fun p q =>
      Text.sameLower p.name q.name = false ∧ Text.sameName p.name q.name = false := by
  refine (List.pairwise_map.1 h).imp fun hne => ?_
  have hlower := Bool.eq_false_iff.2 (mt Text.sameLower_iff.1 hne)
  exact ⟨hlower, sameName_of_not_sameLower hlower⟩

/-- The property of a name is looked up by it. -/
theorem hasColumn_of_mem {e : Entity} (h : (Draft.lowerMembers e.properties).Nodup) {p : Property}
    (hp : p ∈ e.properties) : e.HasColumn p.name p := by
  have hfound : e.property? p.name = some p := by
    cases hq : e.property? p.name with
    | none => simpa using List.find?_eq_none.1 hq p hp
    | some q =>
      have hname := List.find?_some hq
      have hlower := Text.sameLower_iff.1 (Text.sameLower_of_sameName hname)
      rw [List.inj_on_of_nodup_map h (List.mem_of_find?_eq_some hq) hp hlower]
  refine ⟨hp, rfl, ?_⟩
  rw [Entity.columnOf, hfound, Option.map_some, Option.getD_some]

namespace Built

theorem mem_entities (hb : Built d s) {e : Entity} :
    e ∈ s.entities ↔ ∃ id < d.defs.length, s.entity id = e := by
  rw [List.mem_iff_getElem, ← hb.length]
  refine exists_congr fun id => ⟨fun ⟨hid, h⟩ => ⟨hid, ?_⟩, fun ⟨hid, h⟩ => ⟨hid, ?_⟩⟩
  all_goals simpa [Schema.entity, hid] using h

/-- What holds of the entity at each position holds of each entity. -/
theorem forall_entities (hb : Built d s) {motive : Entity → Prop}
    (h : ∀ id < d.defs.length, motive (s.entity id)) : ∀ e ∈ s.entities, motive e := by
  intro e he
  obtain ⟨id, hid, rfl⟩ := hb.mem_entities.1 he
  exact h id hid

theorem entities_eq_map (hb : Built d s) :
    s.entities = (List.range d.defs.length).map s.entity := by
  refine List.ext_getElem (by simp [hb.length]) fun id hid _ => ?_
  simp [Schema.entity, hid]

theorem entity_name (hb : Built d s) (hid : id < d.defs.length) :
    (s.entity id).name = (d.definition id).name :=
  (Draft.entity_ok (hb.entity id hid)).2.2.2.1

theorem map_name (hb : Built d s) : s.entities.map (·.name) = d.defs.map (·.2.name) := by
  refine List.ext_getElem (by simp [hb.length]) fun id hid _ => ?_
  have hid : id < d.defs.length := by simpa [hb.length] using hid
  simpa [hb.entities_eq_map, Draft.definition_eq hid] using hb.entity_name hid

theorem nodup_properties (hb : Built d s) (hid : id < d.defs.length) :
    (Draft.lowerMembers (s.entity id).properties).Nodup :=
  (Draft.properties_eq_ok.1 (Draft.entity_ok (hb.entity id hid)).1).1

theorem hasColumn (hb : Built d s) (hid : id < d.defs.length) {name : String}
    (h : name ∈ d.propertyNames id) : ∃ p, (s.entity id).HasColumn name p := by
  rw [← Draft.map_name_properties (Draft.entity_ok (hb.entity id hid)).1] at h
  obtain ⟨p, hp, rfl⟩ := List.mem_map.1 h
  exact ⟨p, hasColumn_of_mem (hb.nodup_properties hid) hp⟩

/-- A navigation is one that the entity declares, or that to its base. -/
theorem mem_navigations (hb : Built d s) (hid : id < d.defs.length) {n : Navigation}
    (hn : n ∈ (s.entity id).navigations) : d.Declares id (s.entity id).properties n ∨
      ∃ base, d.base? id = some base ∧
        d.baseNavigation id base (s.entity id).properties = .ok n ∧
        ∀ p ∈ (s.entity id).properties, Text.sameLower p.name n.name = false := by
  obtain ⟨-, hall, -⟩ := Draft.entity_ok (hb.entity id hid)
  obtain ⟨declared, hdeclared, ⟨-, heq⟩ | ⟨base, own, hbase, hown, hapart, heq⟩⟩ :=
    Draft.navigations_ok hall
  · exact .inl (hdeclared n (heq ▸ hn))
  · rw [heq] at hn
    rcases List.mem_append.1 hn with hn | hn
    · exact .inl (hdeclared n hn)
    · obtain rfl := List.mem_singleton.1 hn
      exact .inr ⟨base, hbase, hown, hapart⟩

end Built

namespace Checked

theorem nodup_names (hc : Checked sources d) (hb : Built d s) :
    (s.entities.map fun e => Text.lower e.name).Nodup := by
  have hsame : s.entities.map (fun e => Text.lower e.name) = lowerNames d.defs := by
    rw [lowerNames, ← Function.comp_def Text.lower, ← List.map_map, hb.map_name, List.map_map]
    rfl
  exact hsame ▸ hc.distinct

/-! ### Navigations -/

theorem toBase (hb : Built d s) {base : Nat} (hbase : base < d.defs.length)
    {n : Navigation} (h : d.baseNavigation id base (s.entity id).properties = .ok n) :
    n.ToBase s (s.entity id) base := by
  obtain ⟨hlength, -, rfl⟩ := Draft.baseNavigation_ok h
  have hkeys : (s.entity id).keys.length = (d.keys base).length := hlength
  refine ⟨rfl, (hb.entity_name hbase).symm, rfl, ?_, ?_⟩
  · rw [List.map_map]
    show List.map ((·.name) ∘ Prod.fst) ((s.entity id).keys.zip (d.keys base)) = _
    rw [← List.map_map, List.map_fst_zip hkeys.le]
  · rw [List.map_map, hb.entity_keys hbase]
    show List.map ((·.name) ∘ Prod.snd) ((s.entity id).keys.zip (d.keys base)) = _
    rw [← List.map_map, List.map_snd_zip hkeys.ge]

theorem name_mem_propertyNames {p : Property} (h : p ∈ d.keys id) :
    p.name ∈ d.propertyNames id :=
  List.mem_append_left _ (List.mem_map_of_mem h)

theorem sound (hc : Checked sources d) (hb : Built d s) (hid : id < d.defs.length)
    {n : Navigation} (hn : n ∈ (s.entity id).navigations) : n.Sound s (s.entity id) := by
  have hsource : ∀ pair : KeyPair, (∃ p ∈ (s.entity id).properties, p.name = pair.source) →
      ∃ p, (s.entity id).HasColumn pair.source p := fun pair ⟨p, hp, hname⟩ =>
    ⟨p, hname ▸ hasColumn_of_mem (hb.nodup_properties hid) hp⟩
  obtain hdeclared | ⟨base, hbase, hown, -⟩ := hb.mem_navigations hid hn
  · obtain ⟨given, hbuilt⟩ := hdeclared.built
    obtain ⟨target, keys, htarget, hkeys, hpairs, rfl⟩ := Draft.navigation_ok hbuilt
    have hlt := (Draft.find?_some htarget).1
    exact ⟨hb.length ▸ hlt, hkeys, fun pair hpair => hsource pair (hpairs pair hpair).1,
      fun pair hpair => hb.hasColumn hlt (hpairs pair hpair).2⟩
  · have hlt := hc.base?_lt hid hbase
    have hto := toBase hb hlt hown
    refine ⟨hto.target ▸ hb.length ▸ hlt, Draft.keyed_of_base hown, fun pair hpair => ?_,
      fun pair hpair => ?_⟩
    · have hmem : pair.source ∈ (s.entity id).keys.map (·.name) :=
        hto.sources ▸ List.mem_map_of_mem hpair
      obtain ⟨p, hp, hname⟩ := List.mem_map.1 hmem
      exact hsource pair ⟨p, List.mem_of_mem_filter hp, hname⟩
    · have hmem : pair.target ∈ (s.entity base).keys.map (·.name) :=
        hto.targets ▸ List.mem_map_of_mem hpair
      obtain ⟨p, hp, hname⟩ := List.mem_map.1 hmem
      rw [hb.entity_keys hlt] at hp
      rw [hto.target, ← hname]
      exact hb.hasColumn hlt (name_mem_propertyNames hp)

theorem apart (hb : Built d s) (hid : id < d.defs.length) {p : Property}
    (hp : p ∈ (s.entity id).properties) {n : Navigation} (hn : n ∈ (s.entity id).navigations) :
    Text.sameLower p.name n.name = false := by
  obtain hdeclared | ⟨-, -, -, hapart⟩ := hb.mem_navigations hid hn
  · exact hdeclared.apart p hp
  · exact hapart p hp

/-- The navigations that stand for inheritance: one for an entity with a base, none otherwise. -/
theorem filter_inheritance (hb : Built d s) (hid : id < d.defs.length) :
    (d.base? id = none ∧ (s.entity id).navigations.filter (·.inheritance) = []) ∨
      ∃ base own, d.base? id = some base ∧
        d.baseNavigation id base (s.entity id).properties = .ok own ∧
        (s.entity id).navigations.filter (·.inheritance) = [own] := by
  obtain ⟨-, hall, -⟩ := Draft.entity_ok (hb.entity id hid)
  obtain ⟨declared, hdeclared, hcases⟩ := Draft.navigations_ok hall
  have hnone : declared.filter (·.inheritance) = [] :=
    List.filter_eq_nil_iff.2 fun n hn => by simp [(Draft.keyed_of_declares (hdeclared n hn)).2]
  obtain ⟨hbase, heq⟩ | ⟨base, own, hbase, hown, -, heq⟩ := hcases
  · exact .inl ⟨hbase, heq ▸ hnone⟩
  · obtain ⟨-, -, hbuilt⟩ := Draft.baseNavigation_ok hown
    have hinheritance : own.inheritance = true := by rw [hbuilt]
    refine .inr ⟨base, own, hbase, hown, ?_⟩
    rw [heq, List.filter_append, hnone, List.filter_singleton, hinheritance]
    rfl

/-! ### Lineages and keys -/

theorem isLineage (hc : Checked sources d) (hb : Built d s) : ∀ id < d.defs.length,
    s.IsLineage (s.entity id) (s.lineage (s.entity id)) := by
  refine hb.base_induction hc fun id hid ih => ?_
  have honce := hc.nodup_lineage hb id hid
  cases hbase : d.base? id with
  | none =>
    have hroot : (s.entity id).base = none := (hb.entity_base hid).trans hbase
    rw [lineage_root hb hid hbase] at honce ⊢
    exact ⟨rfl, List.IsChain.singleton _, by simpa using hroot, honce⟩
  | some base =>
    have hup := ih base hbase
    have hnext : s.base? (s.entity id) = some (s.entity base) := by
      simp [Schema.base?, hb.entity_base hid, hbase]
    rw [hc.lineage_base hb hid hbase] at honce ⊢
    obtain ⟨rest, hrest⟩ := List.head?_eq_some_iff.1 hup.start
    refine ⟨rfl, ?_, ?_, honce⟩
    · rw [hrest, List.isChain_cons_cons]
      exact ⟨hnext, hrest ▸ hup.climbs⟩
    · rw [hrest, List.getLast?_cons_cons, ← hrest]
      exact hup.ends

theorem inheritedKeys (hc : Checked sources d) (hb : Built d s) (hid : id < d.defs.length)
    (hdeclares : (s.entity id).declaresKeys (definitions sources) = false)
    (hbased : (s.entity id).base ≠ none) : ∃ owner,
      (s.lineage (s.entity id)).tail.find? (·.declaresKeys (definitions sources)) = some owner ∧
        (s.entity id).keys = owner.keys.map Property.inherited := by
  obtain ⟨base, hbase⟩ := Option.ne_none_iff_exists'.1 (hb.entity_base hid ▸ hbased)
  have hlt := hc.base?_lt hid hbase
  have hown : (d.definition id).keys = [] := by
    by_contra hown
    simp [(hc.declaresKeys_entity hb hid).2 hown] at hdeclares
  have hsame : (s.entity id).keys = (s.entity base).keys.map Property.inherited := by
    rw [hb.entity_keys hid, hb.entity_keys hlt, Draft.keys_inherited (hb.ends id hid) hown hbase]
  have hkeys : (s.entity base).keys ≠ [] := by
    obtain ⟨hnone, -⟩ | ⟨base', own, hbase', hbuilt, -⟩ := filter_inheritance hb hid
    · simp [hbase] at hnone
    · obtain rfl := Option.some.inj (hbase.symm.trans hbase')
      obtain ⟨-, hne, -⟩ := Draft.baseNavigation_ok hbuilt
      exact fun hnil => hne (by rw [← Entity.keys, hsame, hnil]; rfl)
  obtain ⟨owner, howner, heq⟩ := hc.nearest_keys hb base hlt hkeys
  refine ⟨owner, ?_, hsame.trans heq⟩
  rw [hc.lineage_base hb hid hbase, List.tail_cons, howner]

end Checked

/-- **What is built is well formed.** -/
theorem build_wellFormed (h : Schema.build sources = .ok s) :
    s.WellFormed (definitions sources) := by
  obtain ⟨d, hc, hentities⟩ := build_eq_ok.1 h
  have hb := hc.built hentities
  exact {
    names := by
      rw [hb.map_name, ← map_entries, ← hc.defs, List.map_map]
      rfl
    ids := by
      rw [hb.length, hb.entities_eq_map, List.map_map]
      refine (List.map_congr_left fun id hid => ?_).trans (List.map_id _)
      exact hb.entity_id (List.mem_range.1 hid)
    found := fun name e => Text.find?_sameLower (hc.nodup_names hb)
    bases := hb.forall_entities fun id hid base hbase => by
      rw [hb.entity_base hid] at hbase
      exact hb.length ▸ hc.base?_lt hid hbase
    acyclic := fun id hcycle =>
      (hc.wellFounded_isBase hb).transGen.asymmetric id id hcycle hcycle
    lineage := hb.forall_entities (hc.isLineage hb)
    properties := hb.forall_entities fun id hid => pairwise_of_nodup (hb.nodup_properties hid)
    apart := hb.forall_entities fun id hid p hp n hn =>
      have hlower := Checked.apart hb hid hp hn
      ⟨hlower, sameName_of_not_sameLower hlower⟩
    navigations := hb.forall_entities fun id hid n hn => hc.sound hb hid hn
    joins := hb.forall_entities fun id hid n hn l host j hj =>
      Plan.allOf?_joinConditions (hj ▸ (hc.sound hb hid hn).keyed)
    root := hb.forall_entities fun id hid hbase => by
      rw [hb.entity_base hid] at hbase
      obtain ⟨-, hnone⟩ | ⟨base, -, hbase', -⟩ := Checked.filter_inheritance hb hid
      · exact hnone
      · simp [hbase] at hbase'
    inherits := hb.forall_entities fun id hid base hbase => by
      rw [Option.mem_def, hb.entity_base hid] at hbase
      obtain ⟨hnone, -⟩ | ⟨base', own, hbase', hown, hone⟩ := Checked.filter_inheritance hb hid
      · simp [hbase] at hnone
      · obtain rfl := Option.some.inj (hbase.symm.trans hbase')
        exact ⟨own, hone, Checked.toBase hb (hc.base?_lt hid hbase) hown⟩
    declaredKeys := hb.forall_entities fun id hid hdeclares => by
      rw [hb.entity_keys hid, hb.entity_id hid, ← hc.definition_eq_getD]
      exact Draft.keys_declared ((hc.declaresKeys_entity hb hid).1 hdeclares)
    inheritedKeys := hb.forall_entities fun id hid => hc.inheritedKeys hb hid }

/-- A receipt is an invoice and an invoice an order, which is declared last and in a source of its
own. Its key is what both are known by. -/
def receipts : List (String × Document) := [
  ("receipts", ⟨[
    { name := "Receipt", base := some "INVOICE", properties := [{name := "Paid"}]
      navigations := [{name := "Payer", target := "customer", keys := [⟨"paid", "id"⟩]}] },
    { name := "Invoice", base := some "Order" }]⟩),
  ("orders", ⟨[
    { name := "Customer", keys := [{name := "Id"}] },
    { name := "Order", keys := [{name := "Id", sequence := true}, {name := "Line"}] }]⟩)]

theorem build_wellFormed_receipts : ∃ s, build receipts = .ok s ∧
    s.WellFormed (definitions receipts) ∧ (s.entity 0).base = some 1 ∧
    (s.entity 0).declaresKeys (definitions receipts) = false ∧
    (s.entity 0).keys = [⟨"Id", "Id", true, false, none, false⟩,
      ⟨"Line", "Line", true, false, none, false⟩] := by
  obtain ⟨s, hs, h⟩ := Except.exists_ok (x := build receipts)
    (fun s => decide ((s.entity 0).base = some 1 ∧
      (s.entity 0).declaresKeys (definitions receipts) = false ∧
      (s.entity 0).keys = [⟨"Id", "Id", true, false, none, false⟩,
        ⟨"Line", "Line", true, false, none, false⟩])) (by decide +kernel)
  exact ⟨s, hs, build_wellFormed hs, of_decide_eq_true h⟩

end Schema
end EntityQuery
