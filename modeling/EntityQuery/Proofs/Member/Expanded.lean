import Mathlib.Data.List.Perm.Subperm
import EntityQuery.Proofs.Member.Projected
import EntityQuery.Proofs.Plan.Groups
import EntityQuery.Proofs.Schema.WellFormed

/-! What a projection shows.

The paths that a projection is written out as (`places`) are read back by the rules for any path.
Where names are bare the two agree: the projection shows all columns of the entity and its
ancestors, each once and each from the entity that declares it, exactly where no property without a
column and no property beside the key hides what an ancestor has to show (`expand_complete_iff`). A
hidden property is written with the way up to its owner, but the writing takes no notice of
properties without a column, and it leaves out a key that anything hides. -/
namespace EntityQuery

open Text (sameName)

/-! ### Lineages -/

namespace Schema

variable {s : Schema} {id : Nat} {owner : Entity}

theorem Ascends.exists_lineage (hs : s.Ascends) (id : Nat) :
    ∃ farther, s.lineage (s.entity id) = s.entity id :: farther := by
  cases hbase : (s.entity id).baseNavigation? with
  | none => exact ⟨[], hs.ends id hbase⟩
  | some base => exact ⟨_, hs.climbs id base hbase⟩

section Built
variable {sources : List (String × Mapping.Document)} (hb : Schema.build sources = .ok s)
include hb

/-- The navigation to a base is named after it. -/
theorem name_base {base : Navigation} (hbase : (s.entity id).baseNavigation? = some base) :
    base.name = (s.entity base.target).name := by
  obtain ⟨d, hc, hentities⟩ := build_eq_ok.1 hb
  have hbuilt := hc.built hentities
  by_cases hid : id < d.defs.length
  · have hmem : base ∈ (s.entity id).navigations := List.mem_of_find?_eq_some hbase
    have hinherits : base.inheritance = true := List.find?_some hbase
    obtain hdeclared | ⟨other, hother, hown, -⟩ := hbuilt.mem_navigations hid hmem
    · simp [(Draft.keyed_of_declares hdeclared).2] at hinherits
    · obtain ⟨-, -, rfl⟩ := Draft.baseNavigation_ok hown
      exact (hbuilt.entity_name (hc.base?_lt hid hother)).symm
  · simp [hbuilt.baseNavigation?_beyond hid] at hbase

theorem nodup_lineage (id : Nat) : (s.lineage (s.entity id)).Nodup := by
  obtain ⟨d, hc, hentities⟩ := build_eq_ok.1 hb
  have hbuilt := hc.built hentities
  by_cases hid : id < d.defs.length
  · exact (hc.nodup_lineage hbuilt id hid).of_map
  · rw [(ascends hb).ends id (hbuilt.baseNavigation?_beyond hid)]
    exact List.nodup_singleton _

/-- The lineage of an entity of the schema lies in the schema. -/
theorem lineage_subset (howner : owner ∈ s.lineage (s.entity id)) (hne : owner ≠ default) :
    s.lineage (s.entity id) ⊆ s.entities := by
  obtain ⟨d, hc, hentities⟩ := build_eq_ok.1 hb
  have hbuilt := hc.built hentities
  have hall : ∀ id < d.defs.length, s.lineage (s.entity id) ⊆ s.entities := by
    refine hbuilt.base_induction hc fun id hid ih => ?_
    have hself : s.entity id ∈ s.entities := hbuilt.mem_entities.2 ⟨id, hid, rfl⟩
    cases hbase : d.base? id with
    | none =>
      rw [Checked.lineage_root hbuilt hid hbase]
      exact List.cons_subset.2 ⟨hself, List.nil_subset _⟩
    | some base =>
      rw [hc.lineage_base hbuilt hid hbase]
      exact List.cons_subset.2 ⟨hself, ih base hbase⟩
  by_cases hid : id < d.defs.length
  · exact hall id hid
  · have hnone := hbuilt.baseNavigation?_beyond hid
    rw [(ascends hb).ends id hnone, List.mem_singleton, hbuilt.entity_beyond hid] at howner
    exact absurd howner hne

end Built
end Schema

namespace Member

variable {s : Schema} {root id target : Nat} {front name : String} {names : List String}
  {way : List Navigation} {nearer : List Entity} {owner : Entity} {p : Property}

section Built
variable {sources : List (String × Mapping.Document)} (hb : Schema.build sources = .ok s)
  (ht : s.TellsApart)
include hb ht

/-- The names of the entities between guide from an entity up to one of its lineage. -/
theorem guides_chain {farther : List Entity}
    (hlineage : s.lineage (s.entity id) = nearer ++ owner :: farther) (hne : owner ≠ default) :
    Guides s id ((nearer ++ [owner]).tail.map (·.name)) (s.ascent id owner.id) owner.id := by
  have hs := Schema.ascends hb
  induction nearer generalizing id with
  | nil =>
    obtain ⟨others, hothers⟩ := hs.exists_lineage id
    obtain rfl : s.entity id = owner := (List.cons.inj (hothers.symm.trans hlineage)).1
    have hid : (s.entity id).id = id := (hs.placed id).resolve_left hne
    rw [hid, hs.ascent_self]
    exact .stay id
  | cons e nearer ih =>
    cases hbase : (s.entity id).baseNavigation? with
    | none => simp [hs.ends id hbase] at hlineage
    | some base =>
      have honce := Schema.nodup_lineage hb id
      have hmem : owner ∈ s.lineage (s.entity id) := by simp [hlineage]
      rw [hs.climbs id base hbase] at hlineage honce
      obtain ⟨rfl, hrest⟩ := List.cons.inj hlineage
      have hup : owner ≠ s.entity id := by
        rintro rfl
        exact (List.nodup_cons.1 honce).1 (by simp [hrest])
      -- The entity behind this one is the base, and the step there is named after it.
      obtain ⟨others, hothers⟩ := hs.exists_lineage base.target
      obtain ⟨more, hmore⟩ : ∃ more, nearer ++ [owner] = s.entity base.target :: more := by
        rw [hothers] at hrest
        cases nearer with
        | nil => exact ⟨[], by rw [(List.cons.inj hrest).1]; rfl⟩
        | cons e nearer => exact ⟨nearer ++ [owner], by rw [(List.cons.inj hrest).1]; rfl⟩
      have hfound := (Schema.membersApart hb ht).nearestNavigation?_eq_some.1
        (nearestNavigation?_self ht hs hbase)
      have hway := Guides.go hfound (ih hrest)
      rw [hs.id_of_base hbase, hs.ascent_self, List.nil_append,
        ← ascent_of_ne hs hbase hmem hne hup, hmore, List.tail_cons,
        Schema.name_base hb hbase] at hway
      rw [List.cons_append, List.tail_cons, hmore]
      exact hway

/-- The properties of an entity have different names. -/
theorem apart_columns (id : Nat) : Apart (s.entity id).columns := by
  have hnodup := (Schema.membersApart hb ht).properties id
  refine ((List.pairwise_map.1 hnodup).sublist List.filter_sublist).imp fun hne => ?_
  exact Bool.eq_false_iff.2 (mt Text.sameName_iff.1 hne)

end Built

/-! ### Projections -/

/-- A projection of everything, or of a member whose names are navigations and no properties, and
the entity that is shown. -/
inductive Projects (s : Schema) (root : Nat) : List String → List Navigation → Nat → Prop where
  | all : Projects s root [] [] root
  | member {member : String} {way : List Navigation} {target : Nat} :
    Guides s root (segments member) way target →
    (∀ front name rest way' id, segments member = front ++ name :: rest →
      Guides s root front way' id → s.LacksProperty id name) →
    Projects s root [member] way target

/-- A path leads to an entity whose members are then written under it. -/
structure Fronts (s : Schema) (root : Nat) (front : String) (way : List Navigation) (target : Nat) :
    Prop where
  flat : '(' ∉ front.toList
  full : "" ∉ frontNames front
  guides : Guides s root (frontNames front) way target

theorem targetOf?_of_guides (h : s.MembersApart) (hway : Guides s id names way target)
    (hnone : ∀ front name rest way' id', names = front ++ name :: rest →
      Guides s id front way' id' → s.LacksProperty id' name) :
    targetOf? s (s.entity id) names = some (s.entity target) := by
  induction hway with
  | stay id => rfl
  | @go id target name names owner n way hn _ ih =>
    have hlacks := hnone [] name names [] id rfl (.stay id)
    rw [targetOf?, Schema.nearestProperty?_eq_none.2 hlacks, Option.isSome_none,
      if_neg Bool.false_ne_true, h.nearestNavigation?_eq_some.2 hn]
    refine ih fun front other rest way' id' hsplit hfront => ?_
    exact hnone (name :: front) other rest _ id' (by rw [hsplit]; rfl) (.go hn hfront)

/-- The names of navigations are bare up to case. -/
theorem Guides.bare (hs : s.Ascends) (hbare : s.BareNames) (h : s.MembersApart)
    (hway : Guides s id names way target) : ∀ name ∈ names, name ≠ "" ∧ '(' ∉ name.toList := by
  induction hway with
  | stay id => exact fun name hname => absurd hname List.not_mem_nil
  | @go id target name names owner n way hn _ ih =>
    refine List.forall_mem_cons.2 ⟨?_, ih⟩
    obtain ⟨howner, hne, hmem⟩ := nearestNavigation?_owner (h.nearestNavigation?_eq_some.2 hn)
    have hentity : owner ∈ s.entities := by
      rw [← hs.entity_id howner hne] at hmem ⊢
      exact Schema.mem_of_navigation hmem
    refine ((hbare owner hentity).2 n.name ?_).of_sameName hn.2.1
    exact List.mem_append_right _ (List.mem_map_of_mem hmem)

theorem Projects.fronts {members : List String} (hs : s.Ascends) (hbare : s.BareNames)
    (h : s.MembersApart) (hp : Projects s root members way target) :
    ∃ front, Fronts s root front way target ∧
      expand s (s.entity root) members = (columnsUnder s (s.entity target) front).eraseDups := by
  cases hp with
  | all => exact ⟨"", ⟨List.not_mem_nil, List.not_mem_nil, .stay root⟩, rfl⟩
  | @member member way target hway hnone =>
    have hnames := hway.bare hs hbare h
    have hflat : '(' ∉ member.toList := fun hopen =>
      let ⟨name, hname, hmem⟩ := exists_open_segment hopen
      (hnames name hname).2 hmem
    have hmember : frontNames member = segments member := by
      rw [frontNames, if_neg]
      rintro rfl
      exact (hnames "" (by decide)).1 rfl
    refine ⟨member, ⟨hflat, ?_, hmember ▸ hway⟩, ?_⟩
    · rw [hmember]
      exact fun hempty => (hnames "" hempty).1 rfl
    · have hshown : shownEntity? s (s.entity root) member = some (s.entity target) := by
        rw [shownEntity?, isRowCount_eq_false hflat, applied?_eq_none hflat]
        exact targetOf?_of_guides h hway hnone
      simp [expand, expandOne, hshown]

/-! ### What a projection has to show -/

/-- One of these entities has a key property of the name. -/
def Rekeyed (nearer : List Entity) (name : String) : Prop :=
  ∃ e ∈ nearer, ∃ q ∈ e.properties, q.key = true ∧ sameName q.name name = true

instance (nearer : List Entity) (name : String) : Decidable (Rekeyed nearer name) :=
  inferInstanceAs (Decidable (∃ e ∈ nearer, ∃ q ∈ e.properties, _))

/-- The property of an entity or of an ancestor has a column that is to be shown: it is no key that
a nearer entity repeats as its own. -/
def Due (s : Schema) (target : Nat) (x : Entity × Property) : Prop :=
  ∃ nearer farther, s.lineage (s.entity target) = nearer ++ x.1 :: farther ∧ x.2 ∈ x.1.columns ∧
    ¬ (x.2.key = true ∧ Rekeyed nearer x.2.name)

/-- A column of a graph shows a property, in the scope of the entity that declares it. -/
structure Shows (s : Schema) (g : JoinGraph) (way : List Navigation) (target : Nat)
    (x : Entity × Property) (c : Column) : Prop where
  measure : c.measure = .value
  column : c.column = x.2.column
  reached : c.scope ≤ g.joins.length
  entity : g.entity s c.scope = x.1
  trail : g.trail c.scope = way ++ s.ascent target x.1.id

/-- The columns show what is to be shown, each property once, and nothing else. -/
def Complete (s : Schema) (g : JoinGraph) (way : List Navigation) (target : Nat)
    (columns : List Column) : Prop :=
  ∃ shown : List (Entity × Property), shown.Nodup ∧ (∀ x, x ∈ shown ↔ Due s target x) ∧
    List.Forall₂ (Shows s g way target) shown columns

/-- A property without a column hides none with a column, unless another hides both. -/
def HiddenByColumns (s : Schema) (target : Nat) : Prop := ∀ nearer owner farther,
  s.lineage (s.entity target) = nearer ++ owner :: farther → ∀ p ∈ owner.columns,
    covered nearer p.name = false → ∀ e ∈ nearer, ∀ q ∈ e.properties,
      sameName q.name p.name = false

/-- A key that is hidden is repeated as a key. -/
def KeysHiddenByKeys (s : Schema) (target : Nat) : Prop := ∀ nearer owner farther,
  s.lineage (s.entity target) = nearer ++ owner :: farther → ∀ p ∈ owner.columns,
    p.key = true → covered nearer p.name = true → Rekeyed nearer p.name

/-- What is said of each element of a list and those before it can be checked place by place. -/
theorem forall_split_iff {α : Type} {l : List α} {motive : List α → α → Prop} :
    (∀ nearer a farther, l = nearer ++ a :: farther → motive nearer a) ↔
      ∀ i (h : i < l.length), motive (l.take i) l[i] := by
  constructor
  · intro h i hi
    refine h _ _ (l.drop (i + 1)) ?_
    rw [List.getElem_cons_drop, List.take_append_drop]
  · rintro h nearer a farther rfl
    simpa using h nearer.length (by simp)

/-- The hit of one split of a list is among the first of another where one of these is not before
it. -/
theorem mem_of_split {α : Type} {before behind nearer farther : List α} {a b c : α}
    (h : before ++ a :: behind = nearer ++ b :: farther) (hc : c ∈ nearer) (hnot : c ∉ before) :
    a ∈ nearer := by
  rcases List.append_eq_append_iff.1 h with ⟨more, rfl, hmore⟩ | ⟨more, rfl, -⟩
  · cases more with
    | nil => exact absurd (by simpa using hc) hnot
    | cons d more => simp [(List.cons.inj hmore).1]
  · exact absurd (List.mem_append_left _ hc) hnot

instance (s : Schema) (target : Nat) : Decidable (HiddenByColumns s target) :=
  decidable_of_iff _ (forall_split_iff (l := s.lineage (s.entity target))
    (motive := fun nearer owner => ∀ p ∈ owner.columns, covered nearer p.name = false →
      ∀ e ∈ nearer, ∀ q ∈ e.properties, sameName q.name p.name = false)).symm

instance (s : Schema) (target : Nat) : Decidable (KeysHiddenByKeys s target) :=
  decidable_of_iff _ (forall_split_iff (l := s.lineage (s.entity target))
    (motive := fun nearer owner => ∀ p ∈ owner.columns, p.key = true →
      covered nearer p.name = true → Rekeyed nearer p.name)).symm

theorem ne_default (hp : p ∈ owner.columns) : owner ≠ default := by
  rintro rfl
  exact absurd hp List.not_mem_nil

section Fronted
variable {sources : List (String × Mapping.Document)} (hb : Schema.build sources = .ok s)
  (hbare : s.BareNames)
include hb hbare

theorem bare_of_place {x : Place} (hx : x ∈ places [] (s.lineage (s.entity target))) :
    x.names ≠ [] ∧ ∀ name ∈ x.names, Bare name := by
  obtain ⟨nearer, farther, hlineage, hx⟩ := mem_places_lineage.1 hx
  obtain ⟨-, hp, -, hnames⟩ := mem_placesOf.1 hx
  have hwithin : s.lineage (s.entity target) ⊆ s.entities :=
    Schema.lineage_subset hb (by simp [hlineage]) (ne_default hp)
  rw [hlineage] at hwithin
  rw [hnames]
  refine ⟨by simp, List.forall_mem_append.2 ⟨fun name hname => ?_, ?_⟩⟩
  · split at hname
    · obtain ⟨e, he, rfl⟩ := List.mem_map.1 hname
      have he : e ∈ nearer ++ x.owner :: farther := by
        rcases List.mem_append.1 (List.mem_of_mem_tail he) with he | he
        · exact List.mem_append_left _ he
        · simp [List.mem_singleton.1 he]
      exact (hbare e (hwithin he)).1
    · exact absurd hname List.not_mem_nil
  · refine List.forall_mem_singleton.2 ((hbare x.owner (hwithin (by simp))).2 _ ?_)
    exact List.mem_append_left _ (List.mem_map_of_mem (List.mem_of_mem_filter hp))

variable (hfront : Fronts s root front way target)
include hfront

/-- The path of a place asks for the names behind those that lead to the entity. -/
theorem Fronts.asks {x : Place} (hx : x ∈ places [] (s.lineage (s.entity target))) :
    Asks (x.names.foldl under front) (frontNames front ++ x.names) .value ∧
      isRowCount (x.names.foldl under front) = false ∧ "" ∉ frontNames front ++ x.names := by
  obtain ⟨hne, hnames⟩ := bare_of_place hb hbare hx
  have hflat := flat_foldl_under hnames hfront.flat
  refine ⟨?_, isRowCount_eq_false hflat, fun hempty => ?_⟩
  · rw [← segments_foldl_under hnames hne]
    exact asks_of_flat hflat
  · exact (List.mem_append.1 hempty).elim hfront.full fun h => (hnames "" h).full rfl

variable (ht : s.TellsApart)
include ht

/-- A place is read as the property that it shows. -/
theorem Fronts.means (hhidden : HiddenByColumns s target) {x : Place}
    (hx : x ∈ places [] (s.lineage (s.entity target))) :
    Means s root (x.names.foldl under front)
      ⟨way ++ s.ascent target x.owner.id, x.property.column, .value⟩ x.owner.id := by
  have hs := Schema.ascends hb
  obtain ⟨hasks, -, hfull⟩ := hfront.asks hb hbare hx
  obtain ⟨nearer, farther, hlineage, hx⟩ := mem_places_lineage.1 hx
  obtain ⟨-, hp, -, hnames⟩ := mem_placesOf.1 hx
  have hne := ne_default hp
  have hmapped : x.property.ignored = false := by simpa using (List.mem_filter.1 hp).2
  have howner : x.owner ∈ s.lineage (s.entity target) := by simp [hlineage]
  have hentity : s.entity x.owner.id = x.owner := hs.entity_id howner hne
  cases hcovered : covered nearer x.property.name with
  | true =>
    rw [hcovered, if_pos rfl] at hnames
    rw [hnames, ← List.append_assoc] at hasks hfull
    have hway := hfront.guides.append (guides_chain hb ht hlineage hne)
    have hnearest : s.NearestProperty x.owner.id x.property.name (s.entity x.owner.id)
        x.property := by
      obtain ⟨others, hothers⟩ := hs.exists_lineage x.owner.id
      have hmem : x.property ∈ (s.entity x.owner.id).properties :=
        hentity.symm ▸ List.mem_of_mem_filter hp
      exact ⟨hmem, Text.sameName_refl _, [], others, hothers, fun e he =>
        absurd he List.not_mem_nil⟩
    have hmeans := Means.property hasks hfull hway hnearest hmapped
    rwa [hs.ascent_self, List.append_nil, ← hnames] at hmeans
  | false =>
    rw [hcovered, if_neg Bool.false_ne_true, List.nil_append] at hnames
    rw [hnames] at hasks hfull ⊢
    refine .property hasks hfull hfront.guides ?_ hmapped
    rw [hentity]
    exact ⟨List.mem_of_mem_filter hp, Text.sameName_refl _, nearer, farther, hlineage,
      hhidden nearer _ farther hlineage _ hp hcovered⟩

end Fronted

/-- What is shown is to be shown, where nothing without a column hides anything. -/
theorem due_of_place (hhidden : HiddenByColumns s target) {x : Place}
    (hx : x ∈ places [] (s.lineage (s.entity target))) : Due s target (x.owner, x.property) := by
  obtain ⟨nearer, farther, hlineage, hx⟩ := mem_places_lineage.1 hx
  obtain ⟨-, hp, hkept, -⟩ := mem_placesOf.1 hx
  refine ⟨nearer, farther, hlineage, hp, ?_⟩
  rintro ⟨hkey, e, he, q, hq, -, hname⟩
  rw [hkey, Bool.and_true] at hkept
  exact Bool.eq_false_iff.1 (hhidden nearer _ farther hlineage _ hp hkept e he q hq) hname

/-- What is to be shown is shown, where a key is hidden by keys only. -/
theorem place_of_due (hkeys : KeysHiddenByKeys s target) {y : Entity × Property}
    (hy : Due s target y) :
    ∃ x ∈ places [] (s.lineage (s.entity target)), (x.owner, x.property) = y := by
  obtain ⟨owner, p⟩ := y
  obtain ⟨nearer, farther, hlineage, hp, hnot⟩ := hy
  refine ⟨placeOf nearer owner p, mem_places_lineage.2 ⟨nearer, farther, hlineage,
    mem_placesOf.2 ⟨rfl, hp, ?_, rfl⟩⟩, rfl⟩
  refine Bool.eq_false_iff.2 fun hskip => ?_
  obtain ⟨hcovered, hkey⟩ := Bool.and_eq_true_iff.1 hskip
  exact hnot ⟨hkey, hkeys nearer owner farther hlineage p hp hkey hcovered⟩

section Shown
variable {sources : List (String × Mapping.Document)} (hb : Schema.build sources = .ok s)
  (ht : s.TellsApart)
include hb ht

theorem pairwise_lineage (target : Nat) :
    (places [] (s.lineage (s.entity target))).Pairwise fun x y => x.names ≠ y.names ∧
      (x.owner, x.property) ≠ (y.owner, y.property) := by
  refine pairwise_places (fun e he => ?_) (Schema.nodup_lineage hb target)
  obtain ⟨other, rfl⟩ := mem_lineageFrom he
  exact apart_columns hb ht other

variable (hbare : s.BareNames)
include hbare

/-- A projection is written out as one path for each place. -/
theorem Projects.expand_eq {members : List String} (hp : Projects s root members way target) :
    ∃ front, Fronts s root front way target ∧ expand s (s.entity root) members =
      (places [] (s.lineage (s.entity target))).map fun x => x.names.foldl under front := by
  obtain ⟨front, hfront, hexpand⟩ :=
    hp.fronts (Schema.ascends hb) hbare (Schema.membersApart hb ht)
  have hwritten : columnsUnder s (s.entity target) front =
      (places [] (s.lineage (s.entity target))).map fun x => x.names.foldl under front := by
    refine lineageColumns_eq (fun e he => ?_) (fun _ => rfl) (fun _ _ => rfl)
    obtain ⟨other, rfl⟩ := mem_lineageFrom he
    exact apart_columns hb ht other
  refine ⟨front, hfront, ?_⟩
  rw [hexpand, hwritten]
  refine Plan.eraseDups_of_nodup (List.pairwise_map.2 ?_)
  refine (pairwise_lineage hb ht target).imp_of_mem fun {x y} hx hy hne hsame => hne.1 ?_
  obtain ⟨hx, hxnames⟩ := bare_of_place hb hbare hx
  obtain ⟨hy, hynames⟩ := bare_of_place hb hbare hy
  have hsegments := congrArg segments hsame
  rw [segments_foldl_under hxnames hx, segments_foldl_under hynames hy] at hsegments
  exact List.append_cancel_left hsegments

/-- A column that was read from a place shows its property. -/
theorem Fronts.shows (hfront : Fronts s root front way target) (hhidden : HiddenByColumns s target)
    {x : Place} (hx : x ∈ places [] (s.lineage (s.entity target))) {g : JoinGraph} (hg : g.Homed s)
    (hroot : g.root = root) {r : Reading} {c : Column}
    (hr : read s root (x.names.foldl under front) = .ok r)
    (hreads : c.Reads g (x.names.foldl under front) r) :
    Shows s g way target (x.owner, x.property) c := by
  have hs := Schema.ascends hb
  have happart := Schema.membersApart hb ht
  obtain ⟨d, hbuilt⟩ := Schema.build_ok hb
  obtain ⟨-, hmember, -⟩ := hfront.asks hb hbare hx
  have hmeans := hfront.means hb hbare ht hhidden hx
  obtain rfl := Except.ok.inj ((hmeans.read hs happart hmember).symm.trans hr)
  obtain ⟨nearer, farther, hlineage, hplace⟩ := mem_places_lineage.1 hx
  have howner : x.owner ∈ s.lineage (s.entity target) := by simp [hlineage]
  refine ⟨hreads.measure, hreads.column, hreads.reached, ?_, hreads.trail⟩
  rw [JoinGraph.entity, hg.rooted.entityAt_eq hreads.reached, hreads.trail, hroot,
    hmeans.endOf_way ht hs hbuilt.acyclic happart]
  exact hs.entity_id howner (ne_default (mem_placesOf.1 hplace).2.1)

/-- The columns of a run over what a projection is written out as show the places in turn. -/
theorem Fronts.resolved (hfront : Fronts s root front way target)
    (hhidden : HiddenByColumns s target) {g : JoinGraph} {columns : List Column}
    (hresolve : resolveEach s (.ofRoot root) ((places [] (s.lineage (s.entity target))).map
      fun x => x.names.foldl under front) = .ok (g, columns)) :
    List.Forall₂ (Shows s g way target)
      ((places [] (s.lineage (s.entity target))).map fun x => (x.owner, x.property)) columns := by
  obtain ⟨d, hbuilt⟩ := Schema.build_ok hb
  have hgathered := resolveEach_gathered ht (Schema.ascends hb) hbuilt.acyclic
    (JoinGraph.homed_ofRoot s root) hresolve
  have hread := List.forall₂_map_left_iff.1 hgathered.columns
  have hall := (List.forall₂_and_left _ _).2 ⟨fun x hx => hx, hread⟩
  refine List.forall₂_map_left_iff.2 (hall.imp ?_)
  rintro x c ⟨hx, r, hr, hreads⟩
  exact hfront.shows hb ht hbare hhidden hx hgathered.homed hgathered.grows.root hr hreads

/-- A property that something without a column hides is written out but cannot be read. -/
theorem Fronts.hiddenByColumns (hfront : Fronts s root front way target)
    (hread : ∀ x ∈ places [] (s.lineage (s.entity target)),
      ∃ r, read s root (x.names.foldl under front) = .ok r) : HiddenByColumns s target := by
  intro nearer owner farther hlineage p hp hcovered
  by_contra hhides
  obtain ⟨e, he, q, hq, hname⟩ : ∃ e ∈ nearer, ∃ q ∈ e.properties,
      sameName q.name p.name = true := by simpa using hhides
  have happart := Schema.membersApart hb ht
  have hx : placeOf nearer owner p ∈ places [] (s.lineage (s.entity target)) :=
    mem_places_lineage.2 ⟨nearer, farther, hlineage,
      mem_placesOf.2 ⟨rfl, hp, by simp [placeOf, hcovered], rfl⟩⟩
  obtain ⟨hasks, hmember, hfull⟩ := hfront.asks hb hbare hx
  have hnames : (placeOf nearer owner p).names = [p.name] := by simp [placeOf, hcovered]
  obtain ⟨r, hr⟩ := hread _ hx
  cases hfound : s.nearestProperty? (s.entity target) p.name with
  | none =>
    have hlacks := Schema.nearestProperty?_eq_none.1 hfound e (by simp [hlineage, he]) q hq
    simp [hlacks] at hname
  | some found =>
    obtain ⟨holder, m⟩ := found
    obtain ⟨hm, hmname, before, behind, hsplit, hbefore⟩ :=
      happart.nearestProperty?_eq_some.1 hfound
    have hnot : e ∉ before := fun he => by simp [hbefore e he q hq] at hname
    have hholder : holder ∈ nearer := mem_of_split (hsplit.symm.trans hlineage) he hnot
    -- With a column it would cover the name.
    have hignored : m.ignored = true := by
      rw [← Bool.not_eq_false]
      intro hmapped
      have hcolumn : m ∈ holder.columns := by simpa [Entity.columns, hmapped] using hm
      exact Bool.eq_false_iff.1 hcovered (covered_eq_true.2 ⟨holder, hholder, m, hcolumn, hmname⟩)
    rw [hnames] at hasks hfull hmember hr
    have hnearest := happart.nearestProperty?_eq_some.1 hfound
    cases ((Unresolvable.notMapped hasks hfull hfront.guides hnearest hignored).read happart
      hmember).symm.trans hr

omit hbare in
/-- Where all that is to be shown is shown, a key is hidden by keys only: else there were more to
show than there are places. -/
theorem keysHiddenByKeys_of_shown (hhidden : HiddenByColumns s target)
    {shown : List (Entity × Property)} (hdue : ∀ x, x ∈ shown ↔ Due s target x)
    (hlength : shown.length = (places [] (s.lineage (s.entity target))).length) :
    KeysHiddenByKeys s target := by
  intro nearer owner farther hlineage p hp hkey hcovered
  by_contra hnot
  have honce : ((places [] (s.lineage (s.entity target))).map
      fun x => (x.owner, x.property)).Nodup :=
    List.pairwise_map.2 ((pairwise_lineage hb ht target).imp And.right)
  have hwithin : (places [] (s.lineage (s.entity target))).map
      (fun x => (x.owner, x.property)) ⊆ shown := fun y hy => by
    obtain ⟨x, hx, rfl⟩ := List.mem_map.1 hy
    exact (hdue _).2 (due_of_place hhidden hx)
  have hperm := (List.subperm_of_subset honce hwithin).perm_of_length_le (by simp [hlength])
  obtain ⟨x, hx, hxp⟩ := List.mem_map.1 (hperm.mem_iff.2 ((hdue (owner, p)).2
    ⟨nearer, farther, hlineage, hp, fun hrekeyed => hnot hrekeyed.2⟩))
  obtain ⟨rfl, rfl⟩ := Prod.mk.inj hxp
  obtain ⟨nearer', farther', hlineage', hx⟩ := mem_places_lineage.1 hx
  have hnodup := Schema.nodup_lineage hb target
  rw [hlineage, List.nodup_middle, List.nodup_cons, List.mem_append, not_or] at hnodup
  obtain ⟨rfl, -, -⟩ := (List.append_cons_inj_of_notMem hnodup.1.1 hnodup.1.2).1
    (hlineage.symm.trans hlineage')
  obtain ⟨-, -, hkept, -⟩ := mem_placesOf.1 hx
  simp [hcovered, hkey] at hkept

/-- Where each place is read, what is shown is shown. -/
theorem Fronts.complete (hfront : Fronts s root front way target)
    (hhidden : HiddenByColumns s target) (hkeys : KeysHiddenByKeys s target) :
    ∃ g columns, resolveEach s (.ofRoot root) ((places [] (s.lineage (s.entity target))).map
        fun x => x.names.foldl under front) = .ok (g, columns) ∧
      Complete s g way target columns := by
  have hs := Schema.ascends hb
  obtain ⟨d, hbuilt⟩ := Schema.build_ok hb
  have hread : ∀ path ∈ (places [] (s.lineage (s.entity target))).map
      (fun x => x.names.foldl under front), ∃ r, read s root path = .ok r := fun path hpath => by
    obtain ⟨x, hx, rfl⟩ := List.mem_map.1 hpath
    obtain ⟨-, hmember, -⟩ := hfront.asks hb hbare hx
    exact ⟨_, (hfront.means hb hbare ht hhidden hx).read hs (Schema.membersApart hb ht) hmember⟩
  obtain ⟨g, columns, hresolve⟩ := exists_resolveEach ht hs hbuilt.acyclic
    (JoinGraph.homed_ofRoot s root) hread
  refine ⟨g, columns, hresolve, _,
    List.pairwise_map.2 ((pairwise_lineage hb ht target).imp And.right), fun y => ?_,
    hfront.resolved hb ht hbare hhidden hresolve⟩
  rw [List.mem_map]
  constructor
  · rintro ⟨x, hx, rfl⟩
    exact due_of_place hhidden hx
  · exact place_of_due hkeys

end Shown

/-- **A projection is complete** exactly where nothing hides what an ancestor has to show but what
is shown itself, and a key is hidden by keys only. -/
theorem expand_complete_iff {sources : List (String × Mapping.Document)}
    (hb : Schema.build sources = .ok s) (ht : s.TellsApart) (hbare : s.BareNames)
    {members : List String} (hp : Projects s root members way target) :
    (∃ g columns, resolveEach s (.ofRoot root) (expand s (s.entity root) members) =
        .ok (g, columns) ∧ Complete s g way target columns) ↔
      HiddenByColumns s target ∧ KeysHiddenByKeys s target := by
  obtain ⟨front, hfront, hexpand⟩ := hp.expand_eq hb ht hbare
  rw [hexpand]
  refine ⟨?_, fun ⟨hhidden, hkeys⟩ => hfront.complete hb ht hbare hhidden hkeys⟩
  rintro ⟨g, columns, hresolve, shown, -, hdue, hshows⟩
  have hhidden : HiddenByColumns s target := by
    refine hfront.hiddenByColumns hb ht hbare fun x hx => ?_
    obtain ⟨d, hbuilt⟩ := Schema.build_ok hb
    have hgathered := resolveEach_gathered ht (Schema.ascends hb) hbuilt.acyclic
      (JoinGraph.homed_ofRoot s root) hresolve
    obtain ⟨c, -, r, hr, -⟩ := hgathered.mem_paths (List.mem_map_of_mem hx)
    exact ⟨r, hr⟩
  have hplaces := (hfront.resolved hb ht hbare hhidden hresolve).length_eq
  rw [List.length_map] at hplaces
  exact ⟨hhidden, keysHiddenByKeys_of_shown hb ht hhidden hdue
    (hshows.length_eq.trans hplaces.symm)⟩

/-! ### Deeds

An invoice repeats the note of an order, and an export hides neither. A draft takes the note away,
and a receipt has a key of its own and another property under the name of the order's key. -/

def deeds : Mapping.Document := ⟨[
  { name := "Order", keys := [{name := "Id"}], properties := [{name := "Note"}] },
  { name := "Invoice", base := some "Order", properties := [{name := "Note"}, {name := "Total"}] },
  { name := "Export", base := some "Invoice", properties := [{name := "Customs"}] },
  { name := "Shipment", keys := [{name := "Id"}], properties := [{name := "ExportId"}]
    navigations := [{name := "Export", target := "Export", keys := [⟨"ExportId", "Id"⟩]}] },
  { name := "Draft", base := some "Order", properties := [{name := "Note", ignored := true}] },
  { name := "Receipt", base := some "Order", keys := [{name := "No"}]
    properties := [{name := "Id"}] }]⟩

def deedsSchema : Schema :=
  match Schema.build [("deeds", deeds)] with
  | .ok s => s
  | .error _ => ⟨[]⟩

theorem deedsSchema_builds : Schema.build [("deeds", deeds)] = .ok deedsSchema := rfl

theorem deedsSchema_tellsApart : deedsSchema.TellsApart :=
  Schema.NamesApart.tellsApart (by decide +kernel)

/-- All of an export, seen from its shipment. -/
theorem expand_complete_iff_shippedExport : deedsSchema.BareNames ∧ ∃ way,
    Projects deedsSchema 3 ["export"] way 2 ∧
    expand deedsSchema (deedsSchema.entity 3) ["export"] = ["export.Id", "export.Customs",
      "export.Note", "export.Total", "export.Invoice.Order.Note"] ∧
    ∃ g columns, resolveEach deedsSchema (.ofRoot 3)
        (expand deedsSchema (deedsSchema.entity 3) ["export"]) = .ok (g, columns) ∧
      Complete deedsSchema g way 2 columns := by
  have hbare : deedsSchema.BareNames := by decide +kernel
  have happart := Schema.membersApart deedsSchema_builds deedsSchema_tellsApart
  have hnames : segments "export" = ["export"] := by decide +kernel
  obtain ⟨owner, n, hn, htarget⟩ : ∃ owner n, deedsSchema.nearestNavigation?
      (deedsSchema.entity 3) "export" = some (owner, n) ∧ n.target = 2 := ⟨_, _, rfl, rfl⟩
  have hlacks : deedsSchema.LacksProperty 3 "export" := Schema.nearestProperty?_eq_none.1 rfl
  have hp : Projects deedsSchema 3 ["export"] (deedsSchema.ascent 3 owner.id ++ [n]) 2 := by
    refine .member ?_ fun front name rest way' id hsplit hfront => ?_
    · rw [hnames]
      exact .go (happart.nearestNavigation?_eq_some.1 hn) (htarget ▸ .stay _)
    · rw [hnames] at hsplit
      obtain ⟨rfl, hsplit⟩ | ⟨front, rfl, hsplit⟩ := List.append_eq_cons_iff.1 hsplit.symm
      · obtain ⟨rfl, -⟩ := List.cons.inj hsplit
        cases hfront
        exact hlacks
      · simp at hsplit
  refine ⟨hbare, _, hp, by decide +kernel, ?_⟩
  exact (expand_complete_iff deedsSchema_builds deedsSchema_tellsApart hbare hp).2
    (by decide +kernel)

/-- A draft cannot be read at all, since its order's note is written as its own, and a receipt does
not show the key of its order, which its own property is taken for. -/
theorem deeds_incomplete :
    (expand deedsSchema (deedsSchema.entity 4) [] = ["Id", "Note"] ∧
      resolveEach deedsSchema (.ofRoot 4) ["Id", "Note"] =
        .error (.ofCause (.member "Draft" "Note" (.notMapped "Note")))) ∧
    expand deedsSchema (deedsSchema.entity 5) [] = ["No", "Id", "Note"] ∧
      (∃ g columns, resolveEach deedsSchema (.ofRoot 5) ["No", "Id", "Note"] = .ok (g, columns) ∧
        columns.map (fun c => (c.scope, c.column)) = [(0, "No"), (0, "Id"), (1, "Note")]) ∧
      ∃ p, p.name = "Id" ∧ Due deedsSchema 5 (deedsSchema.entity 0, p) := by
  refine ⟨⟨by decide +kernel, rfl⟩, by decide +kernel, ⟨_, _, rfl, rfl⟩, ?_⟩
  obtain ⟨p, hp, hname⟩ : ∃ p ∈ (deedsSchema.entity 0).columns, p.name = "Id" :=
    ⟨_, List.mem_cons_self .., rfl⟩
  refine ⟨p, hname, [deedsSchema.entity 5], [], rfl, hp, fun hrekeyed => ?_⟩
  have hnot : ¬ Rekeyed [deedsSchema.entity 5] "Id" := by decide +kernel
  exact hnot (hname ▸ hrekeyed.2)

end Member
end EntityQuery
