import EntityQuery.Proofs.Member.Shared

/-! What a path means.

The names of a path but the last are navigations, each looked up from the entity that those before
it lead to (`Guides`), and the last names a property there. A member is that of the nearest entity
of a lineage that declares one of the name (`Schema.Nearest`), and a property goes before a
navigation. So every path either means a column of some entity (`Means`), or has one of five faults
(`Unresolvable`), and resolving comes to just that, whatever was resolved before
(`resolve_meaning`). -/
namespace EntityQuery

/-! ### The nearest declaration -/

section Nearest
variable {α : Type}

/-- The member `m` has the wanted name and is declared by `owner`, an entity of the lineage, and by
none that is nearer. -/
def Schema.Nearest (s : Schema) (members : Entity → List α) (name : α → String) (id : Nat)
    (wanted : String) (owner : Entity) (m : α) : Prop :=
  m ∈ members owner ∧ Text.sameName (name m) wanted = true ∧ ∃ nearer farther,
    s.lineage (s.entity id) = nearer ++ owner :: farther ∧
      ∀ e ∈ nearer, ∀ other ∈ members e, Text.sameName (name other) wanted = false

/-- No entity of the lineage declares a member of the wanted name. -/
def Schema.Lacks (s : Schema) (members : Entity → List α) (name : α → String) (id : Nat)
    (wanted : String) : Prop :=
  ∀ e ∈ s.lineage (s.entity id), ∀ m ∈ members e, Text.sameName (name m) wanted = false

variable {s : Schema} {members : Entity → List α} {name : α → String} {id : Nat} {wanted : String}

/-- The first declaration along a lineage. -/
def Schema.nearest? (s : Schema) (members : Entity → List α) (name : α → String) (id : Nat)
    (wanted : String) : Option (Entity × α) :=
  (s.lineage (s.entity id)).findSome? fun owner =>
    ((members owner).find? fun m => Text.sameName (name m) wanted).map (owner, ·)

theorem Schema.nearest?_eq_none : s.nearest? members name id wanted = none ↔
    s.Lacks members name id wanted := by
  simp [nearest?, Lacks, List.findSome?_eq_none_iff, List.find?_eq_none]

theorem find?_sameName_iff {ms : List α} (hapart : (ms.map fun m => Text.fold (name m)).Nodup)
    {m : α} : ms.find? (fun m => Text.sameName (name m) wanted) = some m ↔
      m ∈ ms ∧ Text.sameName (name m) wanted = true := by
  constructor
  · intro h
    exact ⟨List.mem_of_find?_eq_some h,
      List.find?_some (p := fun m => Text.sameName (name m) wanted) h⟩
  · rintro ⟨hm, hname⟩
    cases hfound : ms.find? fun m => Text.sameName (name m) wanted with
    | none => exact absurd hname (List.find?_eq_none.1 hfound m hm)
    | some m' =>
      have hname' := List.find?_some (p := fun m => Text.sameName (name m) wanted) hfound
      rw [Text.sameName_iff] at hname hname'
      rw [List.inj_on_of_nodup_map hapart (List.mem_of_find?_eq_some hfound) hm
        (hname'.trans hname.symm)]

/-- The first declaration is the nearest one, where the members of an entity have different
names. -/
theorem Schema.nearest?_eq_some
    (hapart : ∀ e ∈ s.lineage (s.entity id), ((members e).map fun m => Text.fold (name m)).Nodup)
    {owner : Entity} {m : α} : s.nearest? members name id wanted = some (owner, m) ↔
      s.Nearest members name id wanted owner m := by
  have hnone : ∀ e : Entity, ((members e).find? fun m => Text.sameName (name m) wanted).map
      (e, ·) = none ↔ ∀ m ∈ members e, Text.sameName (name m) wanted = false := fun e => by
    simp [List.find?_eq_none]
  rw [nearest?, List.findSome?_eq_some_iff]
  constructor
  · rintro ⟨nearer, e, farther, hlineage, hfound, hnearer⟩
    obtain ⟨m', hm', hpair⟩ := Option.map_eq_some_iff.1 hfound
    obtain ⟨rfl, rfl⟩ := Prod.mk.inj hpair
    obtain ⟨hmem, hname⟩ := (find?_sameName_iff (hapart e (by simp [hlineage]))).1 hm'
    exact ⟨hmem, hname, nearer, farther, hlineage, fun other h => (hnone other).1 (hnearer other h)⟩
  · rintro ⟨hmem, hname, nearer, farther, hlineage, hnearer⟩
    refine ⟨nearer, owner, farther, hlineage, ?_, fun other h => (hnone other).2 (hnearer other h)⟩
    rw [(find?_sameName_iff (hapart owner (by simp [hlineage]))).2 ⟨hmem, hname⟩]
    rfl

end Nearest

namespace Schema

/-- Members of one entity have different names, properties and navigations each for themselves. -/
structure MembersApart (s : Schema) : Prop where
  properties : ∀ id, ((s.entity id).properties.map fun p => Text.fold p.name).Nodup
  navigations : ∀ id, ((s.entity id).navigations.map fun n => Text.fold n.name).Nodup

variable {s : Schema} {id : Nat} {name : String} {owner : Entity}

/-- What every entity of a schema has in its lists every position has. -/
theorem nodup_of_entities {β : Type} {f : Entity → List β} (hempty : f default = [])
    (h : ∀ e ∈ s.entities, (f e).Nodup) (id : Nat) : (f (s.entity id)).Nodup := by
  by_cases hid : id < s.entities.length
  · exact h _ (by simp [entity, hid])
  · have hdefault : s.entity id = default := by simp [entity, Nat.le_of_not_lt hid]
    rw [hdefault, hempty]
    exact List.nodup_nil

theorem membersApart {sources : List (String × Mapping.Document)} (hb : build sources = .ok s)
    (ht : s.TellsApart) : s.MembersApart where
  properties := by
    obtain ⟨d, hbuilt⟩ := build_ok hb
    refine nodup_of_entities (f := fun e => e.properties.map fun p => Text.fold p.name) rfl ?_
    refine hbuilt.forall_entities fun id hid => List.pairwise_map.2 ?_
    exact (pairwise_of_nodup (hbuilt.nodup_properties hid)).imp fun hne =>
      mt Text.sameName_iff.2 (Bool.eq_false_iff.1 hne.2)
  navigations := nodup_of_entities (f := fun e => e.navigations.map fun n => Text.fold n.name) rfl
    fun e he => List.pairwise_map.2 ((ht e he).distinct.imp fun hne hsame =>
      Bool.eq_false_iff.1 hne (Text.sameLower_of_sameName (Text.sameName_iff.2 hsame)))

/-- The nearest property of a name. -/
def NearestProperty (s : Schema) : Nat → String → Entity → Property → Prop :=
  s.Nearest (·.properties) (·.name)

/-- The nearest navigation of a name. -/
def NearestNavigation (s : Schema) : Nat → String → Entity → Navigation → Prop :=
  s.Nearest (·.navigations) (·.name)

def LacksProperty (s : Schema) : Nat → String → Prop := s.Lacks (·.properties) (·.name)

def LacksNavigation (s : Schema) : Nat → String → Prop := s.Lacks (·.navigations) (·.name)

theorem nearestProperty?_eq_none :
    s.nearestProperty? (s.entity id) name = none ↔ s.LacksProperty id name :=
  nearest?_eq_none

theorem nearestNavigation?_eq_none :
    s.nearestNavigation? (s.entity id) name = none ↔ s.LacksNavigation id name :=
  nearest?_eq_none

namespace MembersApart
variable (h : s.MembersApart)
include h

theorem nearestProperty?_eq_some {p : Property} :
    s.nearestProperty? (s.entity id) name = some (owner, p) ↔ s.NearestProperty id name owner p :=
  nearest?_eq_some fun e he => by
    obtain ⟨other, rfl⟩ := Member.mem_lineageFrom he
    exact h.properties other

theorem nearestNavigation?_eq_some {n : Navigation} :
    s.nearestNavigation? (s.entity id) name = some (owner, n) ↔
      s.NearestNavigation id name owner n :=
  nearest?_eq_some fun e he => by
    obtain ⟨other, rfl⟩ := Member.mem_lineageFrom he
    exact h.navigations other

end MembersApart
end Schema

/-! ### Where a way ends -/

/-- The entity that navigations lead to, one after another. -/
def Navigation.endOf (id : Nat) (way : List Navigation) : Nat :=
  way.foldl (fun _ n => n.target) id

open Navigation (endOf)

theorem Navigation.endOf_append (id : Nat) (way way' : List Navigation) :
    endOf id (way ++ way') = endOf (endOf id way) way' :=
  List.foldl_append

/-- A scope is one of the entity at the end of its trail. -/
theorem JoinGraph.Rooted.entityAt_eq {g : JoinGraph} (hg : g.Rooted) {scope : Nat}
    (hscope : scope ≤ g.joins.length) : g.entityAt scope = endOf g.root (g.trail scope) := by
  cases scope with
  | zero => rw [trail_zero]; rfl
  | succ j =>
    have hget : g.joins[j]? = some g.joins[j] := List.getElem?_eq_getElem hscope
    rw [hg.trail_succ hget, Navigation.endOf_append]
    simp [entityAt, hget, endOf]

/-- The way up to an owner ends there. -/
theorem Schema.Ascends.endOf_ascent {s : Schema} (ht : s.TellsApart) (hs : s.Ascends)
    (hacyclic : s.Acyclic) {id : Nat} {owner : Entity} (howner : owner ∈ s.lineage (s.entity id))
    (hne : owner ≠ default) : endOf id (s.ascent id owner.id) = owner.id := by
  have hroot := JoinGraph.homed_ofRoot s id
  have hclimb := JoinGraph.leads_climbTo ht hs hacyclic hroot (Nat.zero_le _) owner.id
  obtain ⟨-, -, hat⟩ := JoinGraph.homed_climbTo ht hs hacyclic hroot (Nat.zero_le _) howner hne
  rw [hclimb.homed.rooted.entityAt_eq hclimb.reached, hclimb.trail, hclimb.grows.root,
    JoinGraph.trail_zero, List.nil_append] at hat
  exact hat

namespace Member

variable {s : Schema} {root id target : Nat} {path name leaf : String} {names rest : List String}
  {way : List Navigation} {measure : Measure} {r : Reading} {fault : MemberFault}

/-! ### What a path asks for -/

/-- The names that a path gives, and what it takes of the column they lead to. -/
inductive Asks (path : String) : List String → Measure → Prop where
  | value : (∀ function argument, ¬ Applies path function argument) →
    Asks path (segments path) .value
  | aggregate {function argument : String} : Applies path function argument →
    '(' ∉ argument.toList → Asks path (segments argument) (.aggregate (Text.capitals function))

/-- Names lead from one entity to another: each is a navigation of the entity that those before it
lead to, and is followed from where it is declared. -/
inductive Guides (s : Schema) : Nat → List String → List Navigation → Nat → Prop where
  | stay (id : Nat) : Guides s id [] [] id
  | go {id target : Nat} {name : String} {names : List String} {owner : Entity} {n : Navigation}
    {way : List Navigation} : s.NearestNavigation id name owner n →
    Guides s n.target names way target →
    Guides s id (name :: names) (s.ascent id owner.id ++ n :: way) target

/-- What a path is to be read as, and the entity whose column that is. A last name of which nothing
is declared is taken for a column. -/
inductive Means (s : Schema) (root : Nat) (path : String) : Reading → Nat → Prop where
  | property {names : List String} {leaf : String} {measure : Measure} {way : List Navigation}
    {id holder : Nat} {p : Property} : Asks path (names ++ [leaf]) measure →
    "" ∉ names ++ [leaf] → Guides s root names way id →
    s.NearestProperty id leaf (s.entity holder) p → p.ignored = false →
    Means s root path ⟨way ++ s.ascent id holder, p.column, measure⟩ holder
  | column {names : List String} {leaf : String} {measure : Measure} {way : List Navigation}
    {id : Nat} : Asks path (names ++ [leaf]) measure → "" ∉ names ++ [leaf] →
    Guides s root names way id → s.LacksProperty id leaf → s.LacksNavigation id leaf →
    Means s root path ⟨way, leaf, measure⟩ id

/-- Why a path stands for no column. -/
inductive Unresolvable (s : Schema) (root : Nat) (path : String) : MemberFault → Prop where
  | nestedAggregate {function argument : String} : Applies path function argument →
    '(' ∈ argument.toList → Unresolvable s root path .nestedAggregate
  | emptySegment {names : List String} {measure : Measure} : Asks path names measure →
    "" ∈ names → Unresolvable s root path .emptySegment
  | notNavigation {names rest : List String} {name : String} {measure : Measure}
    {way : List Navigation} {id : Nat} : Asks path (names ++ name :: rest) measure →
    "" ∉ names ++ name :: rest → rest ≠ [] → Guides s root names way id →
    s.LacksNavigation id name → Unresolvable s root path (.notNavigation name (s.entity id).name)
  | notMapped {names : List String} {leaf : String} {measure : Measure} {way : List Navigation}
    {id : Nat} {owner : Entity} {p : Property} : Asks path (names ++ [leaf]) measure →
    "" ∉ names ++ [leaf] → Guides s root names way id → s.NearestProperty id leaf owner p →
    p.ignored = true → Unresolvable s root path (.notMapped leaf)
  | isNavigation {names : List String} {leaf : String} {measure : Measure} {way : List Navigation}
    {id : Nat} {owner : Entity} {n : Navigation} : Asks path (names ++ [leaf]) measure →
    "" ∉ names ++ [leaf] → Guides s root names way id → s.LacksProperty id leaf →
    s.NearestNavigation id leaf owner n → Unresolvable s root path (.isNavigation leaf)

/-! ### Reading finds the meaning -/

/-- What is read of names that may be missing. -/
def readFull (s : Schema) (id : Nat) (names : List String) :
    Except MemberFault (List Navigation × String) :=
  if names.any (· == "") then .error .emptySegment else readNames s id names

theorem readFull_of_empty (h : "" ∈ names) : readFull s id names = .error .emptySegment := by
  rw [readFull, if_pos (by simpa using h)]

theorem readFull_of_full (h : "" ∉ names) : readFull s id names = readNames s id names := by
  rw [readFull, if_neg (by simpa using h)]

theorem applied?_of_not_applies (h : ∀ function argument, ¬ Applies path function argument) :
    applied? path = none :=
  Option.eq_none_iff_forall_ne_some.2 fun found happlied =>
    h found.1 found.2 (applied?_iff.1 happlied)

theorem Asks.read (h : Asks path names measure) (hmember : isRowCount path = false) (id : Nat) :
    read s id path = (readFull s id names).map fun found => ⟨found.1, found.2, measure⟩ := by
  unfold Member.read
  rw [hmember, if_neg Bool.false_ne_true]
  cases h with
  | value hnone => rw [applied?_of_not_applies hnone]; rfl
  | aggregate happlies hflat =>
    rw [applied?_iff.2 happlies]
    simp only [List.contains_iff_mem, mem_trim_iff not_isBlank_open, hflat, if_false, readDotted,
      segments_trim]
    rfl

/-- Names are read from where those before them lead. -/
theorem Guides.readNames (h : s.MembersApart) (hway : Guides s id names way target)
    (hne : rest ≠ []) : readNames s id (names ++ rest) =
      (readNames s target rest).map fun found => (way ++ found.1, found.2) := by
  induction hway with
  | stay id =>
    rw [List.nil_append]
    cases Member.readNames s id rest <;> rfl
  | @go id target name names owner n way hn _ ih =>
    obtain ⟨next, others, hrest⟩ := List.exists_cons_of_ne_nil
      (List.append_ne_nil_of_right_ne_nil names hne)
    rw [List.cons_append, hrest, readNames_some (h.nearestNavigation?_eq_some.2 hn), ← hrest, ih]
    cases Member.readNames s target rest with
    | error fault => rfl
    | ok found => simp [Except.map]

theorem Guides.append {middle : Nat} {names' : List String} {way' : List Navigation}
    (h : Guides s id names way middle) (h' : Guides s middle names' way' target) :
    Guides s id (names ++ names') (way ++ way') target := by
  induction h with
  | stay id => exact h'
  | go hn _ ih =>
    rw [List.cons_append, List.append_assoc, List.cons_append]
    exact .go hn (ih h')

theorem Guides.endOf_eq (hway : Guides s id names way target) : endOf id way = target := by
  induction hway with
  | stay id => rfl
  | go _ _ ih =>
    rw [Navigation.endOf_append]
    exact ih

/-- Names lead on, or one of them is no navigation of the entity that those before it lead to. -/
theorem guides_or_lacks (s : Schema) (h : s.MembersApart) (id : Nat) (names : List String) :
    (∃ way target, Guides s id names way target) ∨ ∃ front name rest way target,
      names = front ++ name :: rest ∧ Guides s id front way target ∧
        s.LacksNavigation target name := by
  induction names generalizing id with
  | nil => exact .inl ⟨[], id, .stay id⟩
  | cons name names ih =>
    cases hn : s.nearestNavigation? (s.entity id) name with
    | none =>
      exact .inr ⟨[], name, names, [], id, rfl, .stay id, Schema.nearestNavigation?_eq_none.1 hn⟩
    | some found =>
      obtain ⟨owner, n⟩ := found
      have hnearest := h.nearestNavigation?_eq_some.1 hn
      rcases ih n.target with
        ⟨way, target, hway⟩ | ⟨front, other, rest, way, target, rfl, hway, hnot⟩
      · exact .inl ⟨_, target, .go hnearest hway⟩
      · exact .inr ⟨name :: front, other, rest, _, target, rfl, .go hnearest hway, hnot⟩

/-- What a path means is what is read. -/
theorem Means.read (hs : s.Ascends) (h : s.MembersApart) (hmember : isRowCount path = false)
    (hmeans : Means s root path r id) : read s root path = .ok r := by
  cases hmeans with
  | property hasks hfull hway hp hmapped =>
    have hfound := h.nearestProperty?_eq_some.2 hp
    have hid : (s.entity id).id = id :=
      (hs.placed id).resolve_left (nearestProperty?_some hfound).2
    rw [hasks.read hmember, readFull_of_full hfull, hway.readNames h (List.cons_ne_nil _ _),
      Member.readNames, readLeaf_some hfound, hmapped, hid]
    rfl
  | column hasks hfull hway hp hn =>
    rw [hasks.read hmember, readFull_of_full hfull, hway.readNames h (List.cons_ne_nil _ _),
      Member.readNames, readLeaf, Schema.nearestProperty?_eq_none.2 hp,
      Schema.nearestNavigation?_eq_none.2 hn]
    simp [Except.map]

/-- What no column can stand for is not read. -/
theorem Unresolvable.read (h : s.MembersApart) (hmember : isRowCount path = false)
    (hfault : Unresolvable s root path fault) : read s root path = .error fault := by
  cases hfault with
  | nestedAggregate happlies hnested =>
    simp [Member.read, hmember, applied?_iff.2 happlies, mem_trim_iff not_isBlank_open, hnested]
  | emptySegment hasks hempty => rw [hasks.read hmember, readFull_of_empty hempty]; rfl
  | @notNavigation names rest name measure way id hasks hfull hne hway hnot =>
    obtain ⟨next, others, rfl⟩ := List.exists_cons_of_ne_nil hne
    rw [hasks.read hmember, readFull_of_full hfull, hway.readNames h (List.cons_ne_nil _ _),
      readNames_none (Schema.nearestNavigation?_eq_none.2 hnot)]
    rfl
  | notMapped hasks hfull hway hp hignored =>
    rw [hasks.read hmember, readFull_of_full hfull, hway.readNames h (List.cons_ne_nil _ _),
      Member.readNames, readLeaf_some (h.nearestProperty?_eq_some.2 hp), hignored]
    rfl
  | isNavigation hasks hfull hway hp hn =>
    rw [hasks.read hmember, readFull_of_full hfull, hway.readNames h (List.cons_ne_nil _ _),
      Member.readNames, readLeaf, Schema.nearestProperty?_eq_none.2 hp,
      h.nearestNavigation?_eq_some.2 hn]
    rfl

theorem asks_or_nested (path : String) : (∃ names measure, names ≠ [] ∧ Asks path names measure) ∨
    ∃ function argument, Applies path function argument ∧ '(' ∈ argument.toList := by
  by_cases happlies : ∃ function argument, Applies path function argument
  · obtain ⟨function, argument, happlies⟩ := happlies
    by_cases hnested : '(' ∈ argument.toList
    · exact .inr ⟨function, argument, happlies, hnested⟩
    · exact .inl ⟨_, _, segments_ne_nil argument, .aggregate happlies hnested⟩
  · refine .inl ⟨_, _, segments_ne_nil path, .value ?_⟩
    exact fun function argument h => happlies ⟨function, argument, h⟩

/-- A path means something or stands for no column. -/
theorem means_or_unresolvable (hs : s.Ascends) (h : s.MembersApart) (root : Nat) (path : String) :
    (∃ r id, Means s root path r id) ∨ ∃ fault, Unresolvable s root path fault := by
  rcases asks_or_nested path with ⟨all, measure, hne, hasks⟩ | ⟨_, _, happlies, hnested⟩
  swap
  · exact .inr ⟨_, .nestedAggregate happlies hnested⟩
  by_cases hempty : "" ∈ all
  · exact .inr ⟨_, .emptySegment hasks hempty⟩
  obtain ⟨names, leaf, rfl⟩ : ∃ names leaf, all = names ++ [leaf] :=
    ⟨_, _, (List.dropLast_append_getLast hne).symm⟩
  rcases guides_or_lacks s h root names with
    ⟨way, id, hway⟩ | ⟨front, name, rest, way, id, rfl, hway, hnot⟩
  swap
  · rw [List.append_assoc, List.cons_append] at hasks hempty
    exact .inr ⟨_, .notNavigation hasks hempty (by simp) hway hnot⟩
  cases hp : s.nearestProperty? (s.entity id) leaf with
  | some found =>
    obtain ⟨owner, p⟩ := found
    obtain ⟨howner, hdeclares⟩ := nearestProperty?_some hp
    have hnearest := h.nearestProperty?_eq_some.1 hp
    cases hignored : p.ignored with
    | true => exact .inr ⟨_, .notMapped hasks hempty hway hnearest hignored⟩
    | false =>
      rw [← hs.entity_id howner hdeclares] at hnearest
      exact .inl ⟨_, _, .property hasks hempty hway hnearest hignored⟩
  | none =>
    have hlacks := Schema.nearestProperty?_eq_none.1 hp
    cases hn : s.nearestNavigation? (s.entity id) leaf with
    | none =>
      exact .inl ⟨_, _, .column hasks hempty hway hlacks (Schema.nearestNavigation?_eq_none.1 hn)⟩
    | some found =>
      exact .inr ⟨_, .isNavigation hasks hempty hway hlacks (h.nearestNavigation?_eq_some.1 hn)⟩

theorem read_eq_ok (hs : s.Ascends) (h : s.MembersApart) (hmember : isRowCount path = false) :
    read s root path = .ok r ↔ ∃ id, Means s root path r id := by
  refine ⟨fun hread => ?_, fun ⟨id, hmeans⟩ => hmeans.read hs h hmember⟩
  rcases means_or_unresolvable hs h root path with ⟨said, id, hmeans⟩ | ⟨fault, hfault⟩
  · exact ⟨id, Except.ok.inj ((hmeans.read hs h hmember).symm.trans hread) ▸ hmeans⟩
  · cases (hfault.read h hmember).symm.trans hread

theorem read_eq_error (hs : s.Ascends) (h : s.MembersApart) (hmember : isRowCount path = false) :
    read s root path = .error fault ↔ Unresolvable s root path fault := by
  refine ⟨fun hread => ?_, fun hfault => hfault.read h hmember⟩
  rcases means_or_unresolvable hs h root path with ⟨said, id, hmeans⟩ | ⟨found, hfault⟩
  · cases (hmeans.read hs h hmember).symm.trans hread
  · exact Except.error.inj ((hfault.read h hmember).symm.trans hread) ▸ hfault

/-! ### Resolving comes to the meaning -/

section Told
variable (ht : s.TellsApart) (hs : s.Ascends) (hacyclic : s.Acyclic) (h : s.MembersApart)
include ht hs hacyclic h

/-- The way that is read ends at the entity whose column is meant. -/
theorem Means.endOf_way (hmeans : Means s root path r id) : endOf root r.way = id := by
  cases hmeans with
  | property _ _ hway hp _ =>
    obtain ⟨howner, hne⟩ := nearestProperty?_some (h.nearestProperty?_eq_some.2 hp)
    have hup := hs.endOf_ascent ht hacyclic howner hne
    rw [(hs.placed id).resolve_left hne] at hup
    rw [Navigation.endOf_append, hway.endOf_eq, hup]
  | column _ _ hway _ _ => exact hway.endOf_eq

/-- A path is resolved to what it means, in a scope of the entity that is meant. -/
theorem means_of_resolve {g : JoinGraph} (hg : g.Homed s) (hmember : isRowCount path = false)
    {c : Column} (hc : (resolve s g path).2 = .ok c) :
    ∃ r, Means s g.root path r ((resolve s g path).1.entityAt c.scope) ∧
      c.Reads (resolve s g path).1 path r := by
  obtain ⟨r, hr, hreads, hleads⟩ := read_of_resolve ht hs hacyclic hg hc
  obtain ⟨id, hmeans⟩ := (read_eq_ok hs h hmember).1 hr
  refine ⟨r, ?_, hreads⟩
  rwa [hleads.homed.rooted.entityAt_eq hreads.reached, hreads.trail, hleads.grows.root,
    hmeans.endOf_way ht hs hacyclic h]

/-- A path is rejected for the reason that it stands for no column. -/
theorem resolve_eq_error {g : JoinGraph} (hg : g.Homed s) (hmember : isRowCount path = false)
    (error : Error) : (resolve s g path).2 = .error error ↔
      ∃ fault, Unresolvable s g.root path fault ∧
        error = .ofCause (.member (g.entity s 0).name path fault) := by
  have hreads : Except.Alike _ (resolve s g path).2 _ := resolve_reads ht hs hacyclic hg path
  rw [hreads.eq_error_iff, Except.mapError_eq_error]
  exact exists_congr fun fault => and_congr (read_eq_error hs h hmember) eq_comm

end Told

/-- **A path is resolved to what it means**, whatever was resolved before. On success the scope is
one of the entity that declares the last name, or of the one that the navigations lead to where the
name means nothing; and it fails for just the reasons for which a path stands for no column. -/
theorem resolve_meaning {sources : List (String × Mapping.Document)}
    (hb : Schema.build sources = .ok s) (ht : s.TellsApart) {root : Nat} {earlier : List String}
    {g g' : JoinGraph} {before : List (Except Error Column)} {result : Except Error Column}
    (hg : resolveAll s (.ofRoot root) earlier = (g, before)) (hmember : isRowCount path = false)
    (hresolve : resolve s g path = (g', result)) :
    (∀ c, result = .ok c → ∃ r, Means s root path r (g'.entityAt c.scope) ∧ c.Reads g' path r) ∧
      ∀ error, result = .error error ↔ ∃ fault, Unresolvable s root path fault ∧
        error = .ofCause (.member (s.entity root).name path fault) := by
  have hs := Schema.ascends hb
  obtain ⟨d, hbuilt⟩ := Schema.build_ok hb
  have happart := Schema.membersApart hb ht
  obtain ⟨hhomed, hgrows, -⟩ := resolveAll_reads ht hs hbuilt.acyclic
    (JoinGraph.homed_ofRoot s root) earlier
  rw [hg] at hhomed hgrows
  have hroot : g.root = root := hgrows.root
  obtain ⟨rfl, rfl⟩ : (resolve s g path).1 = g' ∧ (resolve s g path).2 = result := by
    simp [hresolve]
  refine ⟨fun c hc => ?_, fun error => ?_⟩
  · have hmeans := means_of_resolve ht hs hbuilt.acyclic happart hhomed hmember hc
    rwa [hroot] at hmeans
  · have hiff := resolve_eq_error ht hs hbuilt.acyclic happart hhomed hmember error
    rwa [hroot, JoinGraph.entity, show g.entityAt 0 = root from hroot] at hiff

/-- The country of the customer of an invoice, which has its customer from the order. -/
theorem resolve_meaning_invoiceCountry : Plan.salesSchema.TellsApart ∧
    isRowCount " Customer.Country . Name" = false ∧ ∃ g before g' c r,
      resolveAll Plan.salesSchema (.ofRoot 1) invoicePaths = (g, before) ∧
      resolve Plan.salesSchema g " Customer.Country . Name" = (g', .ok c) ∧
      Means Plan.salesSchema 1 " Customer.Country . Name" r (g'.entityAt c.scope) ∧
      c.Reads g' " Customer.Country . Name" r ∧
      (Plan.salesSchema.entity (g'.entityAt c.scope)).name = "Country" := by
  have ht : Plan.salesSchema.TellsApart := Schema.NamesApart.tellsApart (by decide +kernel)
  have hmember : isRowCount " Customer.Country . Name" = false := by decide +kernel
  obtain ⟨g, before, g', c, hg, hresolve, hcountry⟩ : ∃ g before g' c,
      resolveAll Plan.salesSchema (.ofRoot 1) invoicePaths = (g, before) ∧
      resolve Plan.salesSchema g " Customer.Country . Name" = (g', .ok c) ∧
      (Plan.salesSchema.entity (g'.entityAt c.scope)).name = "Country" :=
    ⟨_, _, _, _, rfl, rfl, rfl⟩
  obtain ⟨hmeans, -⟩ := resolve_meaning Plan.salesSchema_builds ht hg hmember hresolve
  obtain ⟨r, hr, hreads⟩ := hmeans c rfl
  exact ⟨ht, hmember, g, before, g', c, r, hg, hresolve, hr, hreads, hcountry⟩

end Member
end EntityQuery
