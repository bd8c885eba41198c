import EntityQuery.Proofs.Schema.WellFormed

/-! The order of definitions.

A schema is made of definitions in some order, out of some sources. Two drafts with the same
definitions hold each of them somewhere, and a name leads to the same definition in both
(`Based.find?_matches`). So do bases, and chains of bases have the same length; what an entity is
built from is then the same in both, up to the positions of its base and of the entities that its
navigations lead to (`Rearranged.entity_alike`). Hence the order and the sources decide nothing but
positions, and which fault is found first (`build_rearranged`). -/
namespace EntityQuery

open Mapping (Document EntityDef NavigationDef KeyPairDef)

/-- Options that belong together are both none, or both some. -/
theorem Option.rel_cases {α β : Type} {A : α → β → Prop} {x : Option α} {y : Option β}
    (h : Option.Rel A x y) : (x = none ∧ y = none) ∨ ∃ a b, x = some a ∧ y = some b ∧ A a b := by
  cases h with
  | none => exact .inl ⟨rfl, rfl⟩
  | some hab => exact .inr ⟨_, _, rfl, rfl, hab⟩

/-- The same navigation, leading to positions that belong together. -/
structure Navigation.Alike (T : Nat → Nat → Prop) (n m : Navigation) : Prop where
  name : n.name = m.name
  target : T n.target m.target
  kind : n.kind = m.kind
  keys : n.keys = m.keys
  inheritance : n.inheritance = m.inheritance

/-- The same entity, with a base and navigations to positions that belong together. -/
structure Entity.Alike (T : Nat → Nat → Prop) (e e' : Entity) : Prop where
  name : e.name = e'.name
  table : e.table = e'.table
  schema : e.schema = e'.schema
  properties : e.properties = e'.properties
  navigations : List.Forall₂ (Navigation.Alike T) e.navigations e'.navigations
  base : Option.Rel T e.base e'.base

theorem Entity.Alike.mono {T T' : Nat → Nat → Prop} {e e' : Entity} (h : e.Alike T e')
    (hT : ∀ id id', T id id' → T' id id') : e.Alike T' e' where
  name := h.name
  table := h.table
  schema := h.schema
  properties := h.properties
  navigations := h.navigations.imp fun _ _ hn => {hn with target := hT _ _ hn.target}
  base := by
    obtain ⟨hnone, hnone'⟩ | ⟨base, base', hbase, hbase', hrel⟩ := Option.rel_cases h.base
    · rw [hnone, hnone']
      exact .none
    · rw [hbase, hbase']
      exact .some (hT _ _ hrel)

namespace Schema

/-- Positions at which two schemas have entities of one name. -/
def SameName (s s' : Schema) (id id' : Nat) : Prop :=
  ∃ e e', s.entities[id]? = some e ∧ s'.entities[id']? = some e' ∧ e.name = e'.name

/-- Every name stands for the same entity in both schemas, or for none in both. -/
def Alike (s s' : Schema) : Prop :=
  ∀ name, Option.Rel (Entity.Alike (SameName s s')) (s.entity? name) (s'.entity? name)

variable {sources sources' : List (String × Document)} {s s' : Schema} {d d' : Draft}
  {id id' : Nat}

/-- Positions at which two drafts hold one definition. -/
structure Draft.Matches (d d' : Draft) (id id' : Nat) : Prop where
  left : id < d.defs.length
  right : id' < d'.defs.length
  same : d.definition id = d'.definition id'

/-- Two drafts with the same definitions, in whatever order and out of whatever sources. -/
structure Rearranged (d d' : Draft) : Prop where
  perm : (d.defs.map Prod.snd).Perm (d'.defs.map Prod.snd)

namespace Rearranged

theorem symm (h : Rearranged d d') : Rearranged d' d := ⟨h.perm.symm⟩

theorem length_eq (h : Rearranged d d') : d.defs.length = d'.defs.length := by
  simpa using h.perm.length_eq

/-- Each definition of the one draft is held by the other. -/
theorem exists_matches (h : Rearranged d d') (hid : id < d.defs.length) :
    ∃ id', d.Matches d' id id' := by
  have hmem : d.definition id ∈ d'.defs.map Prod.snd := by
    rw [Draft.definition_eq hid]
    exact h.perm.subset (List.mem_map_of_mem (List.getElem_mem hid))
  obtain ⟨entry, hentry, hsame⟩ := List.mem_map.1 hmem
  obtain ⟨id', hid', rfl⟩ := List.mem_iff_getElem.1 hentry
  exact ⟨id', hid, hid', by rw [Draft.definition_eq hid', hsame]⟩

theorem nodup_lowerNames (h : Rearranged d d') (hd : (lowerNames d.defs).Nodup) :
    (lowerNames d'.defs).Nodup := by
  have hperm := h.perm.map fun e : EntityDef => Text.lower e.name
  rw [List.map_map, List.map_map] at hperm
  exact hperm.nodup_iff.1 hd

end Rearranged

/-! ### Names and bases -/

section
variable (h : Rearranged d d') (hd : Based sources d) (hd' : Based sources' d')
include h hd hd'

/-- A name leads to one definition in both drafts. -/
theorem Based.find?_matches (name : String) :
    Option.Rel (d.Matches d') (d.find? name) (d'.find? name) := by
  cases hfound : d.find? name with
  | some id =>
    obtain ⟨hid, hname⟩ := Draft.find?_some hfound
    obtain ⟨id', hmatch⟩ := h.exists_matches hid
    rw [hd'.find?_eq_some.2 ⟨hmatch.right, hmatch.same ▸ hname⟩]
    exact .some hmatch
  | none =>
    cases hfound' : d'.find? name with
    | none => exact .none
    | some id' =>
      obtain ⟨hid', hname⟩ := Draft.find?_some hfound'
      obtain ⟨id, hmatch⟩ := h.symm.exists_matches hid'
      simp [hd.find?_eq_some.2 ⟨hmatch.right, hmatch.same ▸ hname⟩] at hfound

theorem Based.base?_matches (hm : d.Matches d' id id') :
    Option.Rel (d.Matches d') (d.base? id) (d'.base? id') := by
  rw [hd.base?_eq_bind hm.left, hd'.base?_eq_bind hm.right, hm.same]
  cases (d'.definition id').base with
  | none => exact .none
  | some name => exact find?_matches h hd hd' name

theorem Based.base?_cases (hm : d.Matches d' id id') :
    (d.base? id = none ∧ d'.base? id' = none) ∨ ∃ base base', d.base? id = some base ∧
      d'.base? id' = some base' ∧ d.Matches d' base base' :=
  Option.rel_cases (base?_matches h hd hd' hm)

theorem Based.ends_eq (fuel : Nat) (hm : d.Matches d' id id') :
    d.ends id fuel = d'.ends id' fuel := by
  induction fuel generalizing id id' with
  | zero =>
    rw [Draft.ends, Draft.ends]
    obtain ⟨hnone, hnone'⟩ | ⟨_, _, hbase, hbase', -⟩ := base?_cases h hd hd' hm
    · rw [hnone, hnone']
    · rw [hbase, hbase']
      rfl
  | succ fuel ih =>
    rw [Draft.ends, Draft.ends]
    obtain ⟨hnone, hnone'⟩ | ⟨_, _, hbase, hbase', hm⟩ := base?_cases h hd hd' hm
    · rw [hnone, hnone']
    · rw [hbase, hbase']
      exact ih hm

/-! ### Members -/

theorem Based.keysWithin_eq (fuel : Nat) (hm : d.Matches d' id id') :
    d.keysWithin id fuel = d'.keysWithin id' fuel := by
  induction fuel generalizing id id' with
  | zero => rw [Draft.keysWithin, Draft.keysWithin, hm.same]
  | succ fuel ih =>
    rw [Draft.keysWithin, Draft.keysWithin, hm.same]
    cases (d'.definition id').keys with
    | cons key keys => rfl
    | nil =>
      obtain ⟨hnone, hnone'⟩ | ⟨_, _, hbase, hbase', hm⟩ := base?_cases h hd hd' hm
      · rw [hnone, hnone']
      · simp only [hbase, hbase', ih hm]

theorem Based.keys_eq (hm : d.Matches d' id id') : d.keys id = d'.keys id' := by
  rw [Draft.keys, Draft.keys, h.length_eq]
  exact keysWithin_eq h hd hd' _ hm

theorem Based.propertyNames_eq (hm : d.Matches d' id id') :
    d.propertyNames id = d'.propertyNames id' := by
  rw [Draft.propertyNames, Draft.propertyNames, keys_eq h hd hd' hm, hm.same]

theorem Based.properties_eq (hm : d.Matches d' id id') : d.properties id = d'.properties id' := by
  simp only [Draft.properties, keys_eq h hd hd' hm, hm.same]

theorem Based.inheritedFrom?_eq (name : String) (fuel : Nat) (hm : d.Matches d' id id') :
    d.inheritedFrom? id name fuel = d'.inheritedFrom? id' name fuel := by
  induction fuel generalizing id id' with
  | zero => rfl
  | succ fuel ih =>
    rw [Draft.inheritedFrom?, Draft.inheritedFrom?]
    obtain ⟨hnone, hnone'⟩ | ⟨_, _, hbase, hbase', hm⟩ := base?_cases h hd hd' hm
    · rw [hnone, hnone']
    · simp only [hbase, hbase', hm.same, ih hm]

theorem Based.keyPair_eq (properties : List Property) (navigation : String) (pair : KeyPairDef)
    {target target' : Nat} (hm : d.Matches d' id id') (ht : d.Matches d' target target') :
    d.keyPair id properties navigation target pair =
      d'.keyPair id' properties navigation target' pair := by
  simp only [Draft.keyPair, hm.same, ht.same, propertyNames_eq h hd hd' ht, h.length_eq,
    inheritedFrom?_eq h hd hd' _ _ hm]

theorem Based.navigation_alike (properties : List Property) (n : NavigationDef)
    (hm : d.Matches d' id id') : Except.Alike (Navigation.Alike (d.Matches d'))
      (d.navigation id properties n) (d'.navigation id' properties n) := by
  simp only [Draft.navigation, hm.same]
  obtain ⟨hnone, hnone'⟩ | ⟨target, target', htarget, htarget', ht⟩ :=
    Option.rel_cases (find?_matches h hd hd' n.target)
  · simp only [hnone, hnone']
    exact .error _
  · simp only [htarget, htarget']
    by_cases hempty : n.keys.isEmpty
    · simp only [hempty, if_true]
      exact .error _
    · have hpair : d.keyPair id properties n.name target =
          d'.keyPair id' properties n.name target' :=
        funext fun pair => keyPair_eq h hd hd' properties n.name pair hm ht
      simp only [hempty, hpair]
      refine Except.Alike.bind (A := Eq) (.refl (fun _ => rfl) _) fun keys _ hkeys => ?_
      exact .ok ⟨rfl, ht, rfl, hkeys, rfl⟩

end

theorem addNavigation_alike {T : Nat → Nat → Prop} (entity : String) (properties : List Property)
    {done done' : List Navigation} {n n' : Navigation}
    (hdone : List.Forall₂ (Navigation.Alike T) done done') (hn : n.Alike T n') :
    Except.Alike (List.Forall₂ (Navigation.Alike T))
      (Draft.addNavigation entity properties done n)
      (Draft.addNavigation entity properties done' n') := by
  have hnames : ∀ small, done.any (fun m => Text.sameName m.name small) =
      done'.any (fun m => Text.sameName m.name small) := by
    intro small
    induction hdone with
    | nil => rfl
    | cons hm _ ih => rw [List.any_cons, List.any_cons, hm.name, ih]
  simp only [Draft.addNavigation, hn.name, hnames]
  split
  · exact .error _
  · exact .ok (List.rel_append hdone (.cons hn .nil))

section
variable (h : Rearranged d d') (hd : Based sources d) (hd' : Based sources' d')
include h hd hd'

theorem Based.baseNavigation_alike (properties : List Property) {base base' : Nat}
    (hm : d.Matches d' id id') (hbase : d.Matches d' base base') :
    Except.Alike (Navigation.Alike (d.Matches d'))
      (d.baseNavigation id base properties) (d'.baseNavigation id' base' properties) := by
  simp only [Draft.baseNavigation, keys_eq h hd hd' hbase, hbase.same, hm.same]
  split
  · exact .error _
  · exact .ok ⟨rfl, hbase, rfl, rfl, rfl⟩

theorem Based.navigations_alike (properties : List Property) (hm : d.Matches d' id id') :
    Except.Alike (List.Forall₂ (Navigation.Alike (d.Matches d')))
      (d.navigations id properties) (d'.navigations id' properties) := by
  simp only [Draft.navigations, hm.same]
  refine Except.Alike.bind (A := List.Forall₂ (Navigation.Alike (d.Matches d')))
    (.foldlM (fun n done done' hdone => ?_) .nil) fun declared declared' hdeclared => ?_
  · exact (navigation_alike h hd hd' properties n hm).bind fun _ _ hn =>
      addNavigation_alike _ properties hdone hn
  · obtain ⟨hnone, hnone'⟩ | ⟨_, _, hbase, hbase', ht⟩ := base?_cases h hd hd' hm
    · simp only [hnone, hnone']
      exact .ok hdeclared
    · simp only [hbase, hbase']
      exact (baseNavigation_alike h hd hd' properties hm ht).bind fun _ _ hn =>
        addNavigation_alike _ properties hdeclared hn

/-- One definition is built into the same entity, or fails with the same fault. -/
theorem Based.entity_alike (hm : d.Matches d' id id') :
    Except.Alike (Entity.Alike (d.Matches d')) (d.entity id) (d'.entity id') := by
  simp only [Draft.entity, hm.same, properties_eq h hd hd' hm]
  refine Except.Alike.bind (A := Eq) (.refl (fun _ => rfl) _) fun properties _ hproperties => ?_
  obtain rfl := hproperties
  exact (navigations_alike h hd hd' properties hm).bind fun _ _ hall =>
    .ok ⟨rfl, rfl, rfl, rfl, hall, base?_matches h hd hd' hm⟩

end

/-! ### Schemas -/

namespace Rearranged

/-- What names a base in one draft does so in the other. -/
theorem exists_baseOf (h : Rearranged d d') {e : EntityDef} {base : Option Nat}
    (he : d.baseOf e = .ok base) : ∃ base', d'.baseOf e = .ok base' := by
  unfold Draft.baseOf at *
  cases hbase : e.base with
  | none => exact ⟨none, rfl⟩
  | some name =>
    cases hfound : d.find? name with
    | none => simp [hbase, hfound] at he
    | some id =>
      obtain ⟨hid, hname⟩ := Draft.find?_some hfound
      obtain ⟨id', hm⟩ := h.exists_matches hid
      cases hfound' : d'.find? name with
      | some found => exact ⟨some found, by simp [hfound']⟩
      | none =>
        have habsent := List.findIdx?_eq_none_iff.1 hfound' _ (List.getElem_mem hm.right)
        rw [← Draft.definition_eq hm.right, ← hm.same, Text.sameLower_iff.2 hname] at habsent
        simp at habsent

/-- With the definitions of one draft, the other passes the checks of names and bases too. -/
theorem exists_based (h : (definitions sources).Perm (definitions sources'))
    (hd : Based sources d) : ∃ d', Based sources' d' ∧ Rearranged d d' := by
  -- Bases are looked up in a draft that has none yet, so it is compared with and without them.
  have hsame : ∀ bases, Rearranged d ⟨entries sources', bases⟩ := fun bases =>
    ⟨by rwa [hd.defs, map_entries, map_entries]⟩
  have hbases : ∀ entry ∈ entries sources', ∃ base,
      (Draft.mk (entries sources') []).baseOf entry.2 = .ok base := by
    intro entry hentry
    obtain ⟨id', hid', rfl⟩ := List.mem_iff_getElem.1 hentry
    obtain ⟨id, hm⟩ := (hsame []).symm.exists_matches hid'
    have hbase := hd.baseOf_definition hm.right
    rw [← hm.same, Draft.definition_eq hid'] at hbase
    exact (hsame []).exists_baseOf hbase
  obtain ⟨bases, hbases⟩ := Except.exists_mapM hbases
  exact ⟨⟨entries sources', bases⟩, ⟨rfl, (hsame bases).nodup_lowerNames hd.distinct,
    Except.mapM_eq_ok.1 hbases⟩, hsame bases⟩

end Rearranged

/-- A name finds the entity at the position of its definition. -/
theorem Checked.entity?_eq (hc : Checked sources d) (hb : Built d s) (name : String) :
    s.entity? name = (d.find? name).map s.entity := by
  have hnodup := hc.nodup_names hb
  cases hfound : d.find? name with
  | some id =>
    obtain ⟨hid, hname⟩ := Draft.find?_some hfound
    rw [← hb.entity_name hid] at hname
    exact (Text.find?_sameLower hnodup).2 ⟨hb.mem_entities.2 ⟨id, hid, rfl⟩, hname⟩
  | none =>
    rw [Option.map_none, ← Option.not_isSome_iff_eq_none, Option.isSome_iff_exists]
    rintro ⟨e, he⟩
    obtain ⟨hmem, hname⟩ := (Text.find?_sameLower hnodup).1 he
    obtain ⟨id, hid, rfl⟩ := hb.mem_entities.1 hmem
    rw [hb.entity_name hid] at hname
    simp [hc.find?_eq_some.2 ⟨hid, hname⟩] at hfound

section
variable (h : Rearranged d d') (hc : Checked sources d) (hc' : Checked sources' d')
  (hb : Built d s) (hb' : Built d' s')
include h hc hc' hb hb'

theorem Checked.entity_alike (hm : d.Matches d' id id') :
    (s.entity id).Alike (d.Matches d') (s'.entity id') := by
  have halike := Based.entity_alike h hc.toBased hc'.toBased hm
  rw [hb.entity id hm.left, hb'.entity id' hm.right] at halike
  cases halike with
  | ok halike => exact halike

theorem Checked.alike : s.Alike s' := by
  have hpositions : ∀ id id', d.Matches d' id id' → s.SameName s' id id' := fun id id' hm =>
    ⟨s.entity id, s'.entity id', by simp [Schema.entity, hb.length, hm.left],
      by simp [Schema.entity, hb'.length, hm.right], (entity_alike h hc hc' hb hb' hm).name⟩
  intro name
  rw [hc.entity?_eq hb, hc'.entity?_eq hb']
  obtain ⟨hnone, hnone'⟩ | ⟨id, id', hid, hid', hm⟩ :=
    Option.rel_cases (Based.find?_matches h hc.toBased hc'.toBased name)
  · rw [hnone, hnone']
    exact .none
  · rw [hid, hid']
    exact .some ((entity_alike h hc hc' hb hb' hm).mono hpositions)

end

/-- What can be built from definitions can be built from them in any other order. -/
theorem exists_build_rearranged (h : (definitions sources).Perm (definitions sources'))
    (hs : build sources = .ok s) : ∃ s', build sources' = .ok s' ∧ s.Alike s' := by
  obtain ⟨d, hc, hentities⟩ := build_eq_ok.1 hs
  have hb := hc.built hentities
  obtain ⟨d', hd', hsame⟩ := Rearranged.exists_based h hc.toBased
  have hends : ∀ id' < d'.defs.length, d'.ends id' d'.defs.length = true := by
    intro id' hid'
    obtain ⟨id, hm⟩ := hsame.symm.exists_matches hid'
    rw [Based.ends_eq hsame.symm hd' hc.toBased _ hm, ← hsame.length_eq]
    exact hc.ends id hm.right
  have hbuilt : ∀ id' ∈ List.range d'.defs.length, ∃ e, d'.entity id' = .ok e := by
    intro id' hid'
    obtain ⟨id, hm⟩ := hsame.symm.exists_matches (List.mem_range.1 hid')
    have halike := Based.entity_alike hsame.symm hd' hc.toBased hm
    rw [hb.entity id hm.right] at halike
    generalize d'.entity id' = built at halike
    cases halike with
    | ok halike => exact ⟨_, rfl⟩
  obtain ⟨entities, hentities'⟩ := Except.exists_mapM hbuilt
  have hc' : Checked sources' d' := ⟨hd', hends⟩
  have hs' : build sources' = .ok ⟨entities⟩ := build_eq_ok.2 ⟨d', hc', hentities'⟩
  exact ⟨⟨entities⟩, hs', hc.alike hsame hc' hb (hc'.built hentities')⟩

/-- **The order of definitions and their sources decide nothing but positions.** Both documents
make a schema or neither does, and then a name stands for the same entity in both. -/
theorem build_rearranged (h : (definitions sources).Perm (definitions sources')) :
    (∃ fault fault', build sources = .error fault ∧ build sources' = .error fault') ∨
      ∃ s s', build sources = .ok s ∧ build sources' = .ok s' ∧ s.Alike s' := by
  cases hs : build sources with
  | ok s =>
    obtain ⟨s', hs', halike⟩ := exists_build_rearranged h hs
    exact .inr ⟨s, s', rfl, hs', halike⟩
  | error fault =>
    cases hs' : build sources' with
    | error fault' => exact .inl ⟨fault, fault', rfl, rfl⟩
    | ok s' =>
      obtain ⟨s, hok, -⟩ := exists_build_rearranged h.symm hs'
      simp [hs] at hok

/-- In one document and the other way round, bases come before the entities that name them and
every entity has another position. -/
theorem build_rearranged_receipts :
    let reversed := [("all", Document.mk (definitions receipts).reverse)]
    (definitions receipts).Perm (definitions reversed) ∧
      ∃ s s', build receipts = .ok s ∧ build reversed = .ok s' ∧ s.Alike s' ∧
        s.entities.map (·.name) = ["Receipt", "Invoice", "Customer", "Order"] ∧
        s'.entities.map (·.name) = ["Order", "Customer", "Invoice", "Receipt"] := by
  intro reversed
  have hperm : (definitions receipts).Perm (definitions reversed) :=
    (List.reverse_perm _).symm
  obtain ⟨s, hs, hnames⟩ := Except.exists_ok (x := build receipts) (fun s =>
    decide (s.entities.map (·.name) = ["Receipt", "Invoice", "Customer", "Order"]))
    (by decide +kernel)
  obtain ⟨s', hs', hnames'⟩ := Except.exists_ok (x := build reversed) (fun s =>
    decide (s.entities.map (·.name) = ["Order", "Customer", "Invoice", "Receipt"]))
    (by decide +kernel)
  refine ⟨hperm, s, s', hs, hs', ?_, of_decide_eq_true hnames, of_decide_eq_true hnames'⟩
  obtain ⟨fault, -, herror, -⟩ | ⟨t, t', ht, ht', halike⟩ := build_rearranged hperm
  · simp [hs] at herror
  · obtain rfl := Except.ok.inj (hs.symm.trans ht)
    obtain rfl := Except.ok.inj (hs'.symm.trans ht')
    exact halike

end Schema
end EntityQuery
