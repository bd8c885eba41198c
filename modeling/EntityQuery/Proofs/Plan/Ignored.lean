import Mathlib.Data.List.Find
import EntityQuery.Proofs.Member.Relabelled
import EntityQuery.Proofs.Member.Shared
import EntityQuery.Proofs.Plan.Uninfluenced

/-! Ignored properties do not reach statements.

A member that stands for an ignored property is refused where a column is needed, and passed over in
a projection and in what a row is written by. So the columns that these properties carry are never
read: whatever they are, each request compiles to the same statements, or fails in the same way
(`ignored_unread`). That asks for two things which nothing checks: that no navigation leads over an
ignored property, and that an update neither finds its rows by an ignored key nor calculates with an
ignored member. -/
namespace EntityQuery

open Member (Column)
open Sql (Expr Select)

variable {s : Schema} (column : Property → String)

/-! ### Joins -/

/-- The joins of a graph lead over properties that are not ignored. -/
def JoinGraph.MapsKeys (s : Schema) (g : JoinGraph) : Prop :=
  ∀ j, ∀ pair ∈ (Plan.navigationOf g j).keys,
    (g.entity s (g.parent j)).Maps pair.source ∧ (g.entity s (j + 1)).Maps pair.target

theorem JoinGraph.Homed.mapsKeys {g : JoinGraph} (hg : g.Homed s) (hkeys : s.MapsKeys) :
    g.MapsKeys s := by
  intro j pair hpair
  cases hget : g.joins[j]? with
  | none =>
    rw [Plan.navigationOf, hget] at hpair
    exact absurd hpair List.not_mem_nil
  | some join =>
    have hown := hg.owned hget
    have htarget : g.entity s (j + 1) = s.entity join.navigation.target := by
      simp [JoinGraph.entity, JoinGraph.entityAt, hget]
    rw [Plan.navigationOf, hget] at hpair
    rw [JoinGraph.parent_eq hget, htarget]
    exact hkeys _ (Schema.mem_of_navigation hown) join.navigation hown pair hpair

namespace Plan

section Joins
variable {l : Layout}

theorem rootTable_relabelled (l : Layout) :
    rootTable (s.relabelled column) l = rootTable s l := by
  rw [rootTable, rootTable, JoinGraph.entity_relabelled]
  rfl

variable (hl : l.graph.MapsKeys s)
include hl

theorem matchExists_relabelled (j : Nat) :
    matchExists (s.relabelled column) l j = matchExists s l j := by
  unfold matchExists
  simp only [JoinGraph.entity_relabelled]
  rw [List.map_congr_left fun pair hpair => by
    obtain ⟨hsource, htarget⟩ := hl j pair hpair
    rw [Entity.columnOf_relabelled column hsource, Entity.columnOf_relabelled column htarget]]
  rfl

theorem joinConditions_relabelled (host : Option String) (j : Nat) :
    joinConditions (s.relabelled column) l host j = joinConditions s l host j := by
  have hkeys : keyConditions (s.relabelled column) l host j = keyConditions s l host j := by
    unfold keyConditions
    simp only [JoinGraph.entity_relabelled]
    refine List.map_congr_left fun pair hpair => ?_
    obtain ⟨hsource, htarget⟩ := hl j pair hpair
    rw [Entity.columnOf_relabelled column hsource, Entity.columnOf_relabelled column htarget]
  have hmatch : matchExists (s.relabelled column) l = matchExists s l :=
    funext (matchExists_relabelled column hl)
  rw [joinConditions_eq, joinConditions_eq, hkeys, hmatch]

theorem join_relabelled (host : Option String) :
    join (s.relabelled column) l host = join s l host := by
  funext j
  rw [join, join, JoinGraph.entity_relabelled, joinConditions_relabelled column hl]
  rfl

end Joins

/-! ### Filters -/

theorem resolveConditions_relabelled (g : JoinGraph) (f : Filter) :
    resolveConditions (s.relabelled column) g f = resolveConditions s g f :=
  Member.resolveEach_relabelled ..

theorem resolveSorting_relabelled (g : JoinGraph) (sorting : List Sorting) :
    resolveSorting (s.relabelled column) g sorting = resolveSorting s g sorting := by
  induction sorting generalizing g with
  | nil => rfl
  | cons first rest ih => simp only [resolveSorting, Member.resolveEach_relabelled, ih]

theorem memberExpr_relabelled (l : Layout) (member : String) :
    memberExpr (s.relabelled column) l member = memberExpr s l member := by
  rw [memberExpr, memberExpr, Member.resolve_relabelled]

theorem entityNamed_relabelled (name : String) :
    entityNamed (s.relabelled column) name =
      (entityNamed s name).map (Entity.relabelled column) := by
  rw [entityNamed, entityNamed, Schema.resolve_relabelled]
  cases s.resolve name <;> rfl

theorem subqueryTarget_relabelled (q : Query) :
    subqueryTarget (s.relabelled column) q =
      (subqueryTarget s q).map fun target => (target.1.relabelled column, target.2) := by
  obtain ⟨entity, filter, members, sorting, grouping, paging⟩ := q
  rw [subqueryTarget, subqueryTarget, Schema.resolve_relabelled]
  cases s.resolve entity with
  | error fault => rfl
  | ok e =>
    cases members with
    | nil => rfl
    | cons member rest =>
      cases rest with
      | nil => cases grouping <;> rfl
      | cons _ _ => rfl

theorem bind_congr_ok {α β : Type} {x : Compile α} {f f' : α → Compile β} {n : Numbering}
    (h : ∀ a m, x n = .ok (a, m) → f a m = f' a m) : (x >>= f) n = (x >>= f') n := by
  show (x n >>= fun p => f p.1 p.2) = (x n >>= fun p => f' p.1 p.2)
  exact Except.bind_congr_ok fun p hp => h p.1 p.2 hp

theorem resolved_map_bind {α β γ : Type} (step : Except Error α) (f : α → β)
    (k : β → Compile γ) :
    (resolved (step.map f) >>= k) = (resolved step >>= fun a => k (f a)) := by
  cases step <;> rfl

section Told
variable (ht : s.TellsApart) (hs : s.Ascends) (hacyclic : s.Acyclic) (hkeys : s.MapsKeys)
include ht hs hacyclic hkeys

theorem filtered_relabelled {g : JoinGraph} (hg : g.Homed s) (columns : List Column) (f : Filter)
    (compile : Layout → Compile (Option Expr)) :
    filtered (s.relabelled column) g columns f compile = filtered s g columns f compile := by
  funext n
  unfold filtered
  rw [resolveConditions_relabelled]
  refine bind_congr_ok ?_
  rintro ⟨grown, conditions⟩ m hfound
  obtain ⟨hconditions, rfl⟩ := resolved_ok.1 hfound
  have hgrown : grown.MapsKeys s := by
    have hhomed : grown.Homed s := Member.homed_resolveEach ht hs hacyclic hg hconditions
    exact hhomed.mapsKeys hkeys
  refine bind_congr_ok ?_
  rintro ⟨l, needed⟩ m' hplaced
  simp only [layOut, bind_ok, assign_ok, pure_ok, Prod.mk.injEq] at hplaced
  obtain ⟨names, _, -, ⟨rfl, rfl⟩, -⟩ := hplaced
  refine bind_congr_ok fun filter m'' _ => ?_
  rw [rootTable_relabelled, join_relabelled column hgrown]

theorem subselect_relabelled {q : Query}
    (hfilter : filterExpr (s.relabelled column) q.filter = filterExpr s q.filter) :
    subselect (s.relabelled column) q = subselect s q := by
  obtain ⟨entity, filter, members, sorting, grouping, paging⟩ := q
  rw [subselect, subselect, subqueryTarget_relabelled, resolved_map_bind]
  funext n
  refine bind_congr_ok ?_
  rintro ⟨e, member⟩ m -
  simp only [Member.resolve_relabelled, Entity.id_relabelled, resolveSorting_relabelled]
  have hroot : (Member.resolve s (.ofRoot e.id) member).1.Homed s :=
    (Member.kept_homed ht hs hacyclic).resolve (JoinGraph.homed_ofRoot s e.id) member
  generalize Member.resolve s (.ofRoot e.id) member = found at hroot ⊢
  obtain ⟨g, found⟩ := found
  refine bind_congr_ok ?_
  intro c m' _
  refine bind_congr_ok ?_
  rintro ⟨grown, sorted⟩ m'' hsorted
  have hgrown : grown.Homed s :=
    Member.homed_resolveEach ht hs hacyclic hroot (resolveSorting_ok (resolved_ok.1 hsorted).1)
  have hselect : filtered (s.relabelled column) grown (c :: sorted.map Prod.fst) filter
      (fun l => filterExpr (s.relabelled column) filter l) =
      filtered s grown (c :: sorted.map Prod.fst) filter fun l => filterExpr s filter l := by
    rw [filtered_relabelled column ht hs hacyclic hkeys hgrown]
    exact congrArg _ hfilter
  rw [hselect]

end Told

/-! Filters and the queries behind their conditions compile alike, by the recursion of both. -/

mutual

private theorem filter_relabelled (ht : s.TellsApart) (hs : s.Ascends) (hacyclic : s.Acyclic)
    (hkeys : s.MapsKeys) : ∀ (f : Filter) (l : Layout),
    filterExpr (s.relabelled column) f l = filterExpr s f l
  | .condition c, l => condition_relabelled ht hs hacyclic hkeys c l
  | .composite _ fs, l => by
    rw [filterExpr, filterExpr, filters_relabelled ht hs hacyclic hkeys fs l]
termination_by structural f => f

private theorem filters_relabelled (ht : s.TellsApart) (hs : s.Ascends) (hacyclic : s.Acyclic)
    (hkeys : s.MapsKeys) : ∀ (fs : List Filter) (l : Layout),
    filterExprs (s.relabelled column) fs l = filterExprs s fs l
  | [], _ => rfl
  | f :: fs, l => by
    rw [filterExprs, filterExprs, filter_relabelled ht hs hacyclic hkeys f l,
      filters_relabelled ht hs hacyclic hkeys fs l]
termination_by structural fs => fs

private theorem condition_relabelled (ht : s.TellsApart) (hs : s.Ascends) (hacyclic : s.Acyclic)
    (hkeys : s.MapsKeys) : ∀ (c : Condition) (l : Layout),
    conditionExpr (s.relabelled column) c l = conditionExpr s c l
  | ⟨member, _, operand⟩, l => by
    rw [conditionExpr, conditionExpr, memberExpr_relabelled,
      operand_relabelled ht hs hacyclic hkeys operand]
termination_by structural c => c

private theorem operand_relabelled (ht : s.TellsApart) (hs : s.Ascends) (hacyclic : s.Acyclic)
    (hkeys : s.MapsKeys) : ∀ (o : Operand),
    operandSelect (s.relabelled column) o = operandSelect s o
  | .query q => by
    rw [operandSelect, operandSelect, query_relabelled ht hs hacyclic hkeys q]
  | .absent => rfl
  | .value _ => rfl
  | .list _ => rfl
termination_by structural o => o

private theorem query_relabelled (ht : s.TellsApart) (hs : s.Ascends) (hacyclic : s.Acyclic)
    (hkeys : s.MapsKeys) : ∀ (q : Query),
    subselect (s.relabelled column) q = subselect s q
  | ⟨_, filter, _, _, _, _⟩ =>
    subselect_relabelled column ht hs hacyclic hkeys
      (funext (filter_relabelled ht hs hacyclic hkeys filter))
termination_by structural q => q

end

section Told
variable (ht : s.TellsApart) (hs : s.Ascends) (hacyclic : s.Acyclic) (hkeys : s.MapsKeys)
include ht hs hacyclic hkeys

theorem filterExpr_relabelled (f : Filter) :
    filterExpr (s.relabelled column) f = filterExpr s f :=
  funext (filter_relabelled column ht hs hacyclic hkeys f)

/-! ### Queries -/

omit ht hs hacyclic hkeys in
theorem checkBeside_relabelled {g : JoinGraph} (hg : g.Rooted) (hmaps : g.MapsKeys s)
    (keys : List Column) (c : Column) :
    checkBeside (s.relabelled column) g keys c = checkBeside s g keys c := by
  unfold checkBeside
  rw [JoinGraph.entity_relabelled]
  cases hfirst : (g.rootPath c.scope).head? with
  | none => rfl
  | some first =>
    have hparent := hg.parent_of_head? hfirst
    have hmissing : ((navigationOf g first).keys.find? fun pair =>
        !isGroupKey keys (((g.entity s 0).relabelled column).columnOf pair.source)) =
        (navigationOf g first).keys.find? fun pair =>
          !isGroupKey keys ((g.entity s 0).columnOf pair.source) :=
      List.find?_congr fun pair hpair => by
        have hsource := (hmaps first pair hpair).1
        rw [hparent] at hsource
        rw [Entity.columnOf_relabelled column hsource]
    simp only [hmissing]
    rfl

theorem resolveGrouped_relabelled {g : JoinGraph} (hg : g.Homed s) (f : Filter)
    (grouping : Grouping) (display sorted : List Column) :
    resolveGrouped (s.relabelled column) g f grouping display sorted =
      resolveGrouped s g f grouping display sorted := by
  unfold resolveGrouped
  simp only [Member.resolveEach_relabelled, resolveConditions_relabelled,
    Member.resolve_relabelled]
  refine Except.bind_congr_ok ?_
  rintro ⟨keyed, keys⟩ hkeyed
  have hg := Member.homed_resolveEach ht hs hacyclic hg hkeyed
  refine Except.bind_congr_ok ?_
  rintro ⟨filtered, conditions⟩ hconditions
  have hg := Member.homed_resolveEach ht hs hacyclic hg hconditions
  refine Except.bind_congr_ok ?_
  rintro ⟨tested, having⟩ htested
  have hg := Member.homed_resolveEach ht hs hacyclic hg htested
  refine Except.bind_congr_ok fun rowCount _ => ?_
  have hbeside : checkBeside (s.relabelled column) (Member.resolve s tested rowCountMember).1 keys =
      checkBeside s (Member.resolve s tested rowCountMember).1 keys :=
    funext (checkBeside_relabelled column hg.rooted (hg.mapsKeys hkeys) keys)
  rw [hbeside]

theorem groupedSelects_relabelled {c : GroupedColumns} (hc : c.graph.Homed s) (f : Filter)
    (grouping : Grouping) (sorted : List (Column × Direction)) :
    groupedSelects (s.relabelled column) c f grouping sorted =
      groupedSelects s c f grouping sorted := by
  have hjoin : ∀ names flipped host, join (s.relabelled column) ⟨c.graph, names, flipped⟩ host =
      join s ⟨c.graph, names, flipped⟩ host :=
    fun _ _ host => join_relabelled column (hc.mapsKeys hkeys) host
  simp only [groupedSelects, filterExpr_relabelled column ht hs hacyclic hkeys,
    rootTable_relabelled, hjoin]

theorem querySelects_relabelled (q : Query) :
    querySelects (s.relabelled column) q = querySelects s q := by
  rw [querySelects, querySelects, entityNamed_relabelled, resolved_map_bind]
  funext n
  refine bind_congr_ok fun e _ _ => ?_
  simp only [Entity.id_relabelled, Member.expand_relabelled, Member.resolveEach_relabelled,
    resolveSorting_relabelled]
  refine bind_congr_ok ?_
  rintro ⟨g, display⟩ m hdisplay
  have hg := Member.homed_resolveEach ht hs hacyclic (JoinGraph.homed_ofRoot s e.id)
    (resolved_ok.1 hdisplay).1
  refine bind_congr_ok ?_
  rintro ⟨grown, sorted⟩ m' hsorted
  have hg := Member.homed_resolveEach ht hs hacyclic hg
    (resolveSorting_ok (resolved_ok.1 hsorted).1)
  cases q.grouping with
  | none =>
    simp only [filterExpr_relabelled column ht hs hacyclic hkeys,
      filtered_relabelled column ht hs hacyclic hkeys hg]
  | some grouping =>
    simp only [resolveGrouped_relabelled column ht hs hacyclic hkeys hg]
    refine bind_congr_ok fun c _ hc => ?_
    obtain ⟨rowCount, hrest⟩ := resolveGrouped_resolved (resolved_ok.1 hc).1
    have hc := Member.homed_resolveEach ht hs hacyclic hg hrest
    rw [groupedSelects_relabelled column ht hs hacyclic hkeys hc]

theorem select_relabelled (q : Query) :
    Plan.select (s.relabelled column) q = Plan.select s q := by
  rw [Plan.select, Plan.select, querySelects_relabelled column ht hs hacyclic hkeys]

theorem count_relabelled (entity : String) (f : Filter) (includes : List String) :
    Plan.count (s.relabelled column) entity f includes = Plan.count s entity f includes := by
  have hselect : countSelect (s.relabelled column) entity f includes =
      countSelect s entity f includes := by
    rw [countSelect, countSelect, entityNamed_relabelled, resolved_map_bind,
      filterExpr_relabelled column ht hs hacyclic hkeys]
    funext n
    refine bind_congr_ok fun e _ _ => ?_
    simp only [Entity.id_relabelled, Member.resolveEach_relabelled]
    refine bind_congr_ok ?_
    rintro ⟨g, included⟩ m hincluded
    have hg := Member.homed_resolveEach ht hs hacyclic (JoinGraph.homed_ofRoot s e.id)
      (resolved_ok.1 hincluded).1
    simp only [filtered_relabelled column ht hs hacyclic hkeys hg]
  rw [Plan.count, Plan.count, hselect]

theorem existence_relabelled (entity : String) (f : Filter) :
    Plan.existence (s.relabelled column) entity f = Plan.existence s entity f := by
  have hselect : existsSelect (s.relabelled column) entity f = existsSelect s entity f := by
    rw [existsSelect, existsSelect, entityNamed_relabelled, resolved_map_bind,
      filterExpr_relabelled column ht hs hacyclic hkeys]
    funext n
    refine bind_congr_ok fun e _ _ => ?_
    simp only [Entity.id_relabelled,
      filtered_relabelled column ht hs hacyclic hkeys (JoinGraph.homed_ofRoot s e.id)]
  rw [Plan.existence, Plan.existence, hselect]

/-! ### Writes -/

variable (e : Entity)

omit ht hs hacyclic hkeys in
theorem insert_relabelled (row : Row) (includes : List String) :
    Plan.insert (e.relabelled column) row includes = Plan.insert e row includes := by
  have hcolumns : ∀ row, insertColumns (e.relabelled column) includes row =
      insertColumns e includes row := by
    intro row
    induction row with
    | nil => rfl
    | cons first rest ih =>
      obtain ⟨member, v⟩ := first
      rw [insertColumns, insertColumns, ih, Entity.property?_relabelled]
      cases e.property? member with
      | none => rfl
      | some p =>
        cases hp : p.ignored with
        | true => simp [hp]
        | false => simp [hp, Property.relabelled_of_mapped column hp]
  rw [Plan.insert, Plan.insert, hcolumns]
  rfl

theorem writeFilterExpr_relabelled (f : Filter) :
    writeFilterExpr (s.relabelled column) (e.relabelled column) f = writeFilterExpr s e f := by
  have hcheck : ∀ g cs, checkConditions (s.relabelled column) (e.relabelled column) g cs =
      checkConditions s e g cs := by
    intro g cs
    induction cs generalizing g with
    | nil => rfl
    | cons c rest ih =>
      rw [checkConditions, checkConditions, Member.resolve_relabelled]
      simp only [ih]
      rfl
  rw [writeFilterExpr, writeFilterExpr, hcheck, filterExpr_relabelled column ht hs hacyclic hkeys]
  rfl

theorem delete_relabelled (f : Filter) :
    Plan.delete (s.relabelled column) (e.relabelled column) f = Plan.delete s e f := by
  rw [Plan.delete, Plan.delete, writeFilterExpr_relabelled column ht hs hacyclic hkeys]
  rfl

omit ht hs hacyclic hkeys in
theorem keysExpr_relabelled (h : ∀ key ∈ e.keys, key.ignored = false) (row : OrderedMap Write) :
    keysExpr (e.relabelled column) row = keysExpr e row := by
  have hsame : (e.relabelled column).keys = e.keys := by
    rw [Entity.keys_relabelled]
    conv => rhs; rw [← List.map_id e.keys]
    exact List.map_congr_left fun key hkey => Property.relabelled_of_mapped column (h key hkey)
  rw [keysExpr, keysExpr, hsame]
  rfl

end Told

end Plan

/-- A value calculated from a member is calculated from one that is not ignored. -/
def Write.Maps (e : Entity) : Write → Prop
  | .set _ => True
  | .arithmetic member _ _ => e.Maps member

instance (e : Entity) : (write : Write) → Decidable (write.Maps e)
  | .set _ => isTrue trivial
  | .arithmetic member _ _ => inferInstanceAs (Decidable (e.Maps member))

namespace Plan

theorem assignmentsOf_relabelled (e : Entity) (row : OrderedMap Write) (byKey : Bool)
    {members : List String}
    (h : ∀ member ∈ members, ∀ write ∈ OrderedMap.named? row member, write.Maps e) :
    assignmentsOf (e.relabelled column) row byKey members = assignmentsOf e row byKey members := by
  induction members with
  | nil => rfl
  | cons member rest ih =>
    have hrest := ih fun member hmember => h member (List.mem_cons_of_mem _ hmember)
    rw [assignmentsOf, assignmentsOf, hrest, Entity.property?_relabelled]
    cases hwrite : OrderedMap.named? row member with
    | none => rfl
    | some write =>
      have hvalue : writeValue (e.relabelled column) write = writeValue e write := by
        have hmaps := h member (List.mem_cons_self ..) write hwrite
        cases write with
        | set v => rfl
        | arithmetic operand operator v =>
          rw [writeValue, writeValue, Entity.columnOf_relabelled column hmaps]
      cases e.property? member with
      | none => rfl
      | some p =>
        cases hp : p.ignored with
        | true => simp [hp]
        | false => simp [hp, Property.relabelled_of_mapped column hp, hvalue]

/-! ### Requests -/

/-- The request, with other columns for the ignored properties of the entity that it writes. -/
def Request.relabelled : Request → Request
  | .insert e row includes => .insert (e.relabelled column) row includes
  | .update e row f members => .update (e.relabelled column) row f members
  | .delete e f => .delete (e.relabelled column) f
  | r => r

/-- An update neither finds rows by an ignored key nor calculates with an ignored member. -/
def Request.Maps : Request → Prop
  | .update e row f members =>
    (f.isEmpty = true → ∀ key ∈ e.keys, key.ignored = false) ∧
      ∀ member ∈ members, ∀ write ∈ OrderedMap.named? row member, write.Maps e
  | _ => True

theorem update_relabelled (ht : s.TellsApart) (hs : s.Ascends) (hacyclic : s.Acyclic)
    (hkeys : s.MapsKeys) {e : Entity} {row : OrderedMap Write} {f : Filter} {members : List String}
    (h : (Request.update e row f members).Maps) :
    Plan.update (s.relabelled column) (e.relabelled column) row f members =
      Plan.update s e row f members := by
  obtain ⟨hfound, hcalculated⟩ := h
  have hstatement : updateStatement (s.relabelled column) (e.relabelled column) row f members =
      updateStatement s e row f members := by
    rw [updateStatement, updateStatement, assignmentsOf_relabelled column e row _ hcalculated,
      writeFilterExpr_relabelled column ht hs hacyclic hkeys]
    cases hempty : f.isEmpty with
    | true =>
      rw [keysExpr_relabelled column e (hfound hempty)]
      rfl
    | false => rfl
  rw [Plan.update, Plan.update, hstatement]

/-- **Ignored properties are not read.** A path that comes to a property names its column only if
the property is not ignored; and whatever columns the ignored properties have, a request compiles to
the same statements with the same parameters, or fails in the same way. -/
theorem ignored_unread {sources : List (String × Mapping.Document)}
    (hb : Schema.build sources = .ok s) (ht : s.TellsApart) :
    (∀ g : JoinGraph, g.Homed s → ∀ path p c, Member.isRowCount path = false →
      Member.Finds s p g.root (Member.named path) → (Member.resolve s g path).2 = .ok c →
      p.ignored = false ∧ c.column = p.column) ∧
    (s.MapsKeys → ∀ (column : Property → String) (r : Request), r.Maps →
      (r.relabelled column).compile (s.relabelled column) = r.compile s) := by
  have hs := Schema.ascends hb
  obtain ⟨d, hbuilt⟩ := Schema.build_ok hb
  have hacyclic := hbuilt.acyclic
  refine ⟨fun g hg path p c hmember hp hc =>
    Member.column_of_finds ht hs hacyclic hg hmember hp hc, fun hkeys column r hr => ?_⟩
  cases r with
  | query q =>
    show (Plan.select _ q).map _ = _
    rw [select_relabelled column ht hs hacyclic hkeys]
    rfl
  | page q p =>
    show (Plan.select _ q).map _ = _
    rw [select_relabelled column ht hs hacyclic hkeys]
    rfl
  | count entity f includes =>
    show (Plan.count _ entity f includes).map _ = _
    rw [count_relabelled column ht hs hacyclic hkeys]
    rfl
  | existence entity f =>
    show (Plan.existence _ entity f).map _ = _
    rw [existence_relabelled column ht hs hacyclic hkeys]
    rfl
  | insert e row includes =>
    show (Plan.insert _ row includes).map _ = _
    rw [insert_relabelled]
    rfl
  | update e row f members =>
    show (Plan.update _ _ row f members).map _ = _
    rw [update_relabelled column ht hs hacyclic hkeys hr]
    rfl
  | delete e f =>
    show (Plan.delete _ _ f).map _ = _
    rw [delete_relabelled column ht hs hacyclic hkeys]
    rfl

/-- An order in another state and with a note, which has no column. -/
def notedOrder : Request :=
  .update (salesSchema.entity 0)
    [("Id", .set (.int32 7)), ("Status", .set (.text "held")), ("Note", .set (.text "late"))]
    (.composite .and []) ["Status", "Note"]

theorem ignored_unread_orders :
    (∀ c, (Member.resolve salesSchema (.ofRoot 0) "Note").2 ≠ .ok c) ∧
    salesSchema.relabelled (fun _ => "remark") ≠ salesSchema ∧
    (notedOrder.relabelled fun _ => "remark").compile
        (salesSchema.relabelled fun _ => "remark") =
      .ok ([.update ⟨⟨none, "orders"⟩, [⟨"Status", .param 1⟩],
        some (.equal (.qualified "" "Id") (.param 0))⟩], [.int32 7, .text "held"]) := by
  have hnames : salesSchema.NamesApart := by decide +kernel
  obtain ⟨hpaths, hrequests⟩ := ignored_unread salesSchema_builds hnames.tellsApart
  have hnamed : Member.named "Note" = ["Note"] :=
    @Member.named_dotted ["Note"] (by decide) (by decide) (by decide)
  obtain ⟨owner, note, hnote, hignored⟩ : ∃ owner p,
      salesSchema.nearestProperty? (salesSchema.entity 0) "Note" = some (owner, p) ∧
        p.ignored = true := ⟨_, _, rfl, rfl⟩
  refine ⟨fun c hc => ?_, by decide +kernel, ?_⟩
  · have hfinds : Member.Finds salesSchema note 0 (Member.named "Note") :=
      hnamed ▸ .last hnote
    have hmapped := (hpaths (.ofRoot 0) (JoinGraph.homed_ofRoot _ 0) "Note" note c
      (by decide +kernel) hfinds hc).1
    exact absurd (hmapped.symm.trans hignored) Bool.false_ne_true
  · rw [hrequests (by decide +kernel) _ notedOrder ⟨fun _ => by decide +kernel, by decide +kernel⟩]
    rfl

/-! ### Ledgers

Entries of a ledger lead to their accounts over an ignored property, and tags have an ignored key.
No column but those of ignored properties is called `none`. -/

def ledger : Mapping.Document := ⟨[
  { name := "Entry", keys := [{name := "Id"}]
    properties := [{name := "AccountId", column := some "none", ignored := true},
      {name := "Balance"}]
    navigations := [{name := "Account", target := "Account", keys := [⟨"AccountId", "Id"⟩]}] },
  { name := "Account", keys := [{name := "Id"}], properties := [{name := "Name"}] },
  { name := "Tag", keys := [{name := "Code", column := some "none", ignored := true}]
    properties := [{name := "Label"}] }]⟩

def ledgerSchema : Schema :=
  match Schema.build [("ledger", ledger)] with
  | .ok s => s
  | .error _ => ⟨[]⟩

def accountsOfEntries : Query where
  entity := "Entry"
  filter := .composite .and []
  members := ["Account.Name"]
  sorting := []
  grouping := none
  paging := none

/-- The columns of ignored properties are read by a join, by an update that finds its row by its
key and by one that calculates. -/
theorem ledger_reads_ignored : Schema.build [("ledger", ledger)] = .ok ledgerSchema ∧
    ledgerSchema.NamesApart ∧
    (∀ e ∈ ledgerSchema.entities, ∀ p ∈ e.properties, p.column = "none" ↔ p.ignored = true) ∧
    (∃ plan, Plan.select ledgerSchema accountsOfEntries = .ok plan ∧
      plan.select.joins.map (·.on) = [.equal (.qualified "T" "none") (.qualified "J0" "Id")]) ∧
    (∃ params, (Request.update (ledgerSchema.entity 2)
          [("Code", .set (.text "new")), ("Label", .set (.text "New"))] (.composite .and [])
          ["Label"]).compile ledgerSchema =
      .ok ([.update ⟨⟨none, "Tag"⟩, [⟨"Label", .param 1⟩],
        some (.equal (.qualified "" "none") (.param 0))⟩], params)) ∧
    ∃ params, (Request.update (ledgerSchema.entity 0)
          [("Balance", .arithmetic "AccountId" .add (.int32 1))]
          (.condition ⟨"Id", .equal, .value (.int32 5)⟩) ["Balance"]).compile ledgerSchema =
      .ok ([.update ⟨⟨none, "Entry"⟩,
        [⟨"Balance", .binary (.qualified "" "none") .add (.param 1)⟩],
        some (.binary (.qualified "" "Id") .eq (.param 0))⟩], params) :=
  ⟨rfl, by decide +kernel, by decide +kernel, ⟨_, rfl, rfl⟩, ⟨_, rfl⟩, ⟨_, rfl⟩⟩

end Plan
end EntityQuery
