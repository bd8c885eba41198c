import EntityQuery.Proofs.Schema.Checked

/-! What the checks on members leave.

The properties of an entity are its key and then those it declares, with names that differ in
lower case. A declared navigation is built once its target is found and its keys are properties of
the two entities (`navigation_ok`); the one to the base pairs the keys of both
(`baseNavigation_ok`). No navigation has the name of a property (`navigations_ok`). -/
namespace EntityQuery.Schema.Draft

open Mapping (EntityDef NavigationDef KeyPairDef)

variable {d : Draft} {id target base : Nat} {properties : List Property}

/-! ### Properties -/

/-- The names of properties as they are told apart. -/
def lowerMembers (properties : List Property) : List (List Char) :=
  properties.map fun p => Text.lower p.name

theorem addProperty_eq_ok {entity : String} {p : Property} {added : List Property} :
    addProperty entity properties p = .ok added ↔
      Text.lower p.name ∉ lowerMembers properties ∧ added = properties ++ [p] := by
  have htaken : (properties.any fun q => Text.sameLower q.name p.name) = true ↔
      Text.lower p.name ∈ lowerMembers properties := by
    simp [lowerMembers, Text.sameLower_iff]
  unfold addProperty
  split
  · next h => simp [htaken.1 h]
  · next h => simp [mt htaken.2 h, eq_comm]

/-- The properties of an entity, when no two have one name. -/
theorem properties_eq_ok : d.properties id = .ok properties ↔
    (lowerMembers properties).Nodup ∧
      properties = d.keys id ++ (d.definition id).properties.map propertyOf := by
  have hadded : d.properties id = .ok properties ↔
      (lowerMembers (d.keys id ++ (d.definition id).properties.map propertyOf)).Nodup ∧
        properties = d.keys id ++ (d.definition id).properties.map propertyOf :=
    Except.foldlM_distinct (fun properties : List Property => properties)
      (fun p => Text.lower p.name) (fun _ _ _ => addProperty_eq_ok) List.nodup_nil
  rw [hadded]
  constructor <;> rintro ⟨hnodup, rfl⟩ <;> exact ⟨hnodup, rfl⟩

theorem key_map_keyOf {keys : List Mapping.PropertyDef} : ∀ p ∈ keys.map keyOf, p.key = true := by
  intro p hp
  obtain ⟨key, -, rfl⟩ := List.mem_map.1 hp
  rfl

theorem key_keysWithin (d : Draft) (id fuel : Nat) : ∀ p ∈ d.keysWithin id fuel, p.key = true := by
  induction fuel generalizing id with
  | zero => exact key_map_keyOf
  | succ fuel ih =>
    rw [keysWithin]
    split
    · next base _ _ =>
      intro p hp
      obtain ⟨q, hq, rfl⟩ := List.mem_map.1 hp
      exact ih base q hq
    · exact key_map_keyOf

/-- The keys of an entity are found among its properties. -/
theorem filter_key (h : d.properties id = .ok properties) :
    properties.filter (·.key) = d.keys id := by
  obtain ⟨-, rfl⟩ := properties_eq_ok.1 h
  have hkeys : (d.keys id).filter (·.key) = d.keys id :=
    List.filter_eq_self.2 (key_keysWithin d id _)
  have hrest : ((d.definition id).properties.map propertyOf).filter (·.key) = [] := by
    simp [List.filter_map, propertyOf, Function.comp_def]
  rw [List.filter_append, hkeys, hrest, List.append_nil]

theorem map_name_properties (h : d.properties id = .ok properties) :
    properties.map (·.name) = d.propertyNames id := by
  obtain ⟨-, rfl⟩ := properties_eq_ok.1 h
  simp [propertyNames, propertyOf, Function.comp_def]

/-! ### Navigations -/

theorem keyPair_ok {navigation : String} {pair : KeyPairDef} {built : KeyPair}
    (h : d.keyPair id properties navigation target pair = .ok built) :
    (∃ p ∈ properties, p.name = built.source) ∧ built.target ∈ d.propertyNames target := by
  unfold keyPair at h
  cases hsource : properties.find? fun p => Text.sameLower p.name pair.source with
  | none =>
    cases hinherited : d.inheritedFrom? id pair.source d.defs.length <;>
      simp [hsource, hinherited] at h
  | some source =>
    cases hname : (d.propertyNames target).find? fun name => Text.sameName name pair.target with
    | none => simp [hsource, hname] at h
    | some name =>
      simp only [hsource, hname] at h
      obtain rfl := Except.ok.inj h
      exact ⟨⟨source, List.mem_of_find?_eq_some hsource, rfl⟩, List.mem_of_find?_eq_some hname⟩

/-- A navigation that is built from its definition leads to the entity it names. -/
theorem navigation_ok {n : NavigationDef} {built : Navigation}
    (h : d.navigation id properties n = .ok built) :
    ∃ target keys, d.find? n.target = some target ∧ keys ≠ [] ∧
      (∀ pair ∈ keys, (∃ p ∈ properties, p.name = pair.source) ∧
        pair.target ∈ d.propertyNames target) ∧
      built = {name := n.name, target, kind := n.mode, keys, inheritance := false} := by
  unfold navigation at h
  cases htarget : d.find? n.target with
  | none => simp [htarget, throw, throwThe, MonadExceptOf.throw] at h
  | some target =>
    simp only [htarget] at h
    by_cases hempty : n.keys.isEmpty
    · simp [hempty, throw, throwThe, MonadExceptOf.throw] at h
    · rw [if_neg hempty] at h
      simp only [Except.bind_eq_ok, Except.pure_eq_ok] at h
      obtain ⟨keys, hkeys, rfl⟩ := h
      refine ⟨target, keys, rfl, ?_, fun pair hpair => ?_, rfl⟩
      · rintro rfl
        exact hempty (List.isEmpty_iff_length_eq_zero.2 (Except.mapM_eq_ok.1 hkeys).length_eq)
      · obtain ⟨pairDef, -, hbuilt⟩ := Except.mem_of_mapM hkeys hpair
        exact keyPair_ok hbuilt

theorem baseNavigation_ok {built : Navigation}
    (h : d.baseNavigation id base properties = .ok built) :
    (properties.filter (·.key)).length = (d.keys base).length ∧ properties.filter (·.key) ≠ [] ∧
      built = {
        name := (d.definition base).name
        target := base
        kind := .inner
        keys := ((properties.filter (·.key)).zip (d.keys base)).map fun (source, target) =>
          ⟨source.name, target.name⟩
        inheritance := true } := by
  simp only [baseNavigation] at h
  split at h
  · simp at h
  · next hcount =>
    simp only [Bool.or_eq_true, decide_eq_true_eq, not_or, Bool.not_eq_true, ne_eq,
      Decidable.not_not] at hcount
    exact ⟨hcount.1, fun hnil => by simp [hnil] at hcount, (Except.ok.inj h).symm⟩

theorem addNavigation_ok {entity : String} {done added : List Navigation} {n : Navigation}
    (h : addNavigation entity properties done n = .ok added) :
    added = done ++ [n] ∧ ∀ p ∈ properties, Text.sameLower p.name n.name = false := by
  simp only [addNavigation] at h
  split at h
  · simp at h
  · next hfree =>
    simp only [Bool.or_eq_true, not_or, Bool.not_eq_true, List.any_eq_false] at hfree
    exact ⟨(Except.ok.inj h).symm, fun p hp => by simpa using hfree.1 p hp⟩

/-- What is asked of each navigation when it is added. -/
structure Declares (d : Draft) (id : Nat) (properties : List Property) (n : Navigation) : Prop where
  built : ∃ given, d.navigation id properties given = .ok n
  apart : ∀ p ∈ properties, Text.sameLower p.name n.name = false

/-- The navigations of an entity are those it declares and, behind them, that to its base. -/
theorem navigations_ok {all : List Navigation} (h : d.navigations id properties = .ok all) :
    ∃ declared, (∀ n ∈ declared, Declares d id properties n) ∧
      ((d.base? id = none ∧ all = declared) ∨ ∃ base own, d.base? id = some base ∧
        d.baseNavigation id base properties = .ok own ∧
        (∀ p ∈ properties, Text.sameLower p.name own.name = false) ∧ all = declared ++ [own]) := by
  simp only [navigations, Except.bind_eq_ok] at h
  obtain ⟨declared, hdeclared, h⟩ := h
  refine ⟨declared, ?_, ?_⟩
  · refine Except.foldlM_keeps (motive := fun done => ∀ n ∈ done, Declares d id properties n)
      ?_ (fun _ hn => absurd hn List.not_mem_nil) hdeclared
    intro done given added hdone hstep
    simp only [Except.bind_eq_ok] at hstep
    obtain ⟨built, hbuilt, hadd⟩ := hstep
    obtain ⟨rfl, hapart⟩ := addNavigation_ok hadd
    intro n hn
    rcases List.mem_append.1 hn with hn | hn
    · exact hdone n hn
    · exact List.mem_singleton.1 hn ▸ ⟨⟨given, hbuilt⟩, hapart⟩
  · cases hbase : d.base? id with
    | none =>
      simp only [hbase, Except.pure_eq_ok] at h
      exact .inl ⟨rfl, h.symm⟩
    | some base =>
      simp only [hbase, Except.bind_eq_ok] at h
      obtain ⟨own, hown, hadd⟩ := h
      obtain ⟨rfl, hapart⟩ := addNavigation_ok hadd
      exact .inr ⟨base, own, rfl, hown, hapart, rfl⟩

/-- An entity is read off its definition, its properties and its navigations. -/
theorem entity_ok {e : Entity} (h : d.entity id = .ok e) :
    d.properties id = .ok e.properties ∧ d.navigations id e.properties = .ok e.navigations ∧
      e.id = id ∧ e.name = (d.definition id).name ∧ e.base = d.base? id := by
  simp only [entity, Except.bind_eq_ok, Except.pure_eq_ok] at h
  obtain ⟨properties, hproperties, all, hall, rfl⟩ := h
  exact ⟨hproperties, hall, rfl, rfl, rfl⟩

end EntityQuery.Schema.Draft
