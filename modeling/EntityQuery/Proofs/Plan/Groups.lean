import EntityQuery.Proofs.Member.Route
import EntityQuery.Proofs.Plan.Run

/-! The columns of groups, by their paths.

What a derived table of groups shows can be told from the text of a query: the keys, then the
aggregates that are shown or sorted by, and the row count (`groupPaths`). A query that shows these
and is sorted by none but these (`Query.ofGroups`) asks for the same derived table and for nothing
beside it. -/
namespace EntityQuery

namespace Member

variable {s : Schema} {id : Nat} {path : String}

/-- The path asks for an aggregate or for the row count. -/
def isAggregatePath (path : String) : Bool := isRowCount path || (applied? path).isSome

theorem read_measure {r : Reading} (h : read s id path = .ok r) :
    (r.measure != .value) = isAggregatePath path ∧ (r.measure == .rowCount) = isRowCount path := by
  unfold read at h
  unfold isAggregatePath
  cases hcount : isRowCount path with
  | true =>
    rw [hcount, if_pos rfl] at h
    obtain rfl := Except.ok.inj h
    exact ⟨rfl, rfl⟩
  | false =>
    rw [hcount, if_neg Bool.false_ne_true] at h
    cases happlied : applied? path with
    | none =>
      simp only [happlied, Except.map_eq_ok] at h
      obtain ⟨found, -, rfl⟩ := h
      exact ⟨rfl, rfl⟩
    | some applied =>
      simp only [happlied] at h
      split at h
      · cases h
      · obtain ⟨found, -, rfl⟩ := Except.map_eq_ok.1 h
        exact ⟨rfl, rfl⟩

/-! ### Projections of columns -/

/-- Names that lead to a column do not lead to an entity. -/
theorem targetOf?_of_read {names : List String} {r : List Navigation × String}
    (h : readNames s id names = .ok r) : targetOf? s (s.entity id) names = none := by
  induction names generalizing id r with
  | nil => cases h
  | cons name rest ih =>
    rw [targetOf?]
    cases hp : s.nearestProperty? (s.entity id) name with
    | some found => rfl
    | none =>
      rw [Option.isSome_none, if_neg Bool.false_ne_true]
      cases hn : s.nearestNavigation? (s.entity id) name with
      | none => rfl
      | some found =>
        obtain ⟨owner, n⟩ := found
        cases rest with
        | nil =>
          rw [readNames, readLeaf, hp, hn] at h
          cases h
        | cons next rest =>
          rw [readNames_some hn, Except.map_eq_ok] at h
          obtain ⟨found, hfound, -⟩ := h
          exact ih hfound

/-- A member that is a column stands for itself. -/
theorem expandOne_of_read {r : Reading} (h : read s id path = .ok r) :
    expandOne s (s.entity id) path = [path] := by
  have hshown : shownEntity? s (s.entity id) path = none := by
    rw [shownEntity?]
    cases hmember : isAggregatePath path with
    | true =>
      rw [isAggregatePath] at hmember
      rw [if_pos hmember]
    | false =>
      rw [isAggregatePath] at hmember
      obtain ⟨hcount, happlied⟩ := Bool.or_eq_false_iff.1 hmember
      have hnames := readNames_of_read hcount h
      rw [named, Option.not_isSome_iff_eq_none.1 (Bool.eq_false_iff.1 happlied)] at hnames
      rw [hmember, if_neg Bool.false_ne_true]
      exact targetOf?_of_read hnames
  rw [expandOne, hshown]

/-- Members that are columns stand for themselves, each at its first place. -/
theorem expand_of_read {members : List String} (hne : members ≠ [])
    (h : ∀ path ∈ members, ∃ r, read s id path = .ok r) :
    expand s (s.entity id) members = members.eraseDups := by
  have hone : members.flatMap (expandOne s (s.entity id)) = members.flatMap ([·]) :=
    List.flatMap_congr fun path hpath =>
      let ⟨_, hr⟩ := h path hpath
      expandOne_of_read hr
  rw [expand, if_neg (by simpa using hne), hone, List.flatMap_singleton']

end Member

namespace Plan

open Member (Column Gathered isAggregatePath)

variable {s : Schema} {columns : List Column}

/-! ### Columns by their paths -/

/-- Columns that are told apart by their paths, each with the measure that its path asks for. -/
structure ByPath (columns : List Column) : Prop where
  same : ∀ c ∈ columns, ∀ c' ∈ columns, c.path = c'.path → c = c'
  aggregate : ∀ c ∈ columns, c.isAggregate = isAggregatePath c.path
  rowCount : ∀ c ∈ columns, c.isRowCount = Member.isRowCount c.path

theorem ByPath.mem_iff (h : ByPath columns) {done : List Column} (hdone : done ⊆ columns)
    {c : Column} (hc : c ∈ columns) : c ∈ done ↔ c.path ∈ done.map (·.path) := by
  constructor
  · exact List.mem_map_of_mem
  · intro hpath
    obtain ⟨c', hc', hsame⟩ := List.mem_map.1 hpath
    exact h.same c' (hdone hc') c hc hsame ▸ hc'

theorem ByPath.any_isRowCount (h : ByPath columns) {done : List Column} (hdone : done ⊆ columns) :
    done.any (·.isRowCount) = (done.map (·.path)).any Member.isRowCount := by
  rw [List.any_map, Bool.eq_iff_iff, List.any_eq_true, List.any_eq_true]
  exact exists_congr fun c => and_congr_right fun hc => by
    rw [Function.comp_apply, h.rowCount c (hdone hc)]

/-- The columns of one run are such. -/
theorem byPath_of_gathered {g g' : JoinGraph} {paths : List String}
    (h : Gathered s g paths g' columns) : ByPath columns where
  same c hc c' hc' hsame := by
    obtain ⟨path, -, r, hr, hreads⟩ := h.mem_columns hc
    obtain ⟨path', -, r', hr', hreads'⟩ := h.mem_columns hc'
    rw [hreads.path, hreads'.path] at hsame
    subst hsame
    obtain rfl := Except.ok.inj (hr.symm.trans hr')
    exact hreads.unique h.homed hreads'
  aggregate c hc := by
    obtain ⟨path, -, r, hr, hreads⟩ := h.mem_columns hc
    rw [Column.isAggregate, hreads.measure, hreads.path, (Member.read_measure hr).1]
  rowCount c hc := by
    obtain ⟨path, -, r, hr, hreads⟩ := h.mem_columns hc
    rw [Column.isRowCount, hreads.measure, hreads.path, (Member.read_measure hr).2]

/-! ### What a derived table shows -/

/-- The paths of the aggregates that are asked for, behind those that are there. -/
def withAggregatePaths (done asked : List String) : List String :=
  asked.foldl (fun done path =>
    if isAggregatePath path && !done.contains path then done ++ [path] else done) done

/-- The paths of a derived table: its keys, the aggregates that are asked for, and a row count. -/
def groupPaths (keys asked : List String) : List String :=
  let paths := withAggregatePaths keys asked
  if paths.any Member.isRowCount then paths else paths ++ [rowCountMember]

theorem withAggregates_paths (h : ByPath columns) {keys asked : List Column}
    (hkeys : keys ⊆ columns) (hasked : asked ⊆ columns) :
    (asked.foldl (fun done c =>
      if c.isAggregate && !done.contains c then done ++ [c] else done) keys).map (·.path) =
        withAggregatePaths (keys.map (·.path)) (asked.map (·.path)) := by
  induction asked generalizing keys with
  | nil => rfl
  | cons first rest ih =>
    obtain ⟨hfirst, hrest⟩ := List.cons_subset.1 hasked
    have hcontains : keys.contains first = (keys.map (·.path)).contains first.path := by
      rw [Bool.eq_iff_iff, List.contains_iff_mem, List.contains_iff_mem]
      exact h.mem_iff hkeys hfirst
    rw [List.foldl_cons, List.map_cons, withAggregatePaths, List.foldl_cons, hcontains,
      h.aggregate first hfirst]
    split
    · have hdone : keys ++ [first] ⊆ columns :=
        List.append_subset.2 ⟨hkeys, List.cons_subset.2 ⟨hfirst, List.nil_subset _⟩⟩
      have hmore := ih hdone hrest
      rw [List.map_append] at hmore
      exact hmore
    · exact ih hkeys hrest

theorem innerColumns_paths (h : ByPath columns) {rowCount : Column} {keys asked : List Column}
    (hkeys : keys ⊆ columns) (hasked : asked ⊆ columns) (hrow : rowCount.path = rowCountMember) :
    (innerColumns rowCount keys asked).map (·.path) =
      groupPaths (keys.map (·.path)) (asked.map (·.path)) := by
  have hpaths := withAggregates_paths h hkeys hasked
  have hcount := h.any_isRowCount fun c hc =>
    (mem_withAggregates.1 hc).elim (fun hkey => hkeys hkey) fun hadded => hasked hadded.1
  rw [innerColumns, groupPaths, hcount, hpaths]
  split
  · exact hpaths
  · rw [List.map_append, hpaths, List.map_singleton, hrow]

/-! ### Asking for the same again -/

/-- Aggregates that are not there yet, each once. -/
structure NewAggregates (done more : List String) : Prop where
  nodup : more.Nodup
  aggregate : ∀ path ∈ more, isAggregatePath path = true
  new : ∀ path ∈ more, path ∉ done

theorem newAggregates_cons {done more : List String} {path : String} :
    NewAggregates done (path :: more) ↔ (isAggregatePath path = true ∧ path ∉ done) ∧
      NewAggregates (done ++ [path]) more := by
  constructor
  · intro ⟨hnodup, haggregate, hnew⟩
    obtain ⟨hnot, hnodup⟩ := List.nodup_cons.1 hnodup
    obtain ⟨hfirst, haggregate⟩ := List.forall_mem_cons.1 haggregate
    obtain ⟨hfresh, hnew⟩ := List.forall_mem_cons.1 hnew
    refine ⟨⟨hfirst, hfresh⟩, hnodup, haggregate, fun other hother hmem => ?_⟩
    rcases List.mem_append.1 hmem with hmem | hmem
    · exact hnew other hother hmem
    · exact hnot (List.mem_singleton.1 hmem ▸ hother)
  · intro ⟨⟨hfirst, hfresh⟩, hnodup, haggregate, hnew⟩
    refine ⟨List.nodup_cons.2 ⟨fun hmem => ?_, hnodup⟩, List.forall_mem_cons.2 ⟨hfirst, haggregate⟩,
      List.forall_mem_cons.2 ⟨hfresh, fun other hother hmem => ?_⟩⟩
    · exact hnew path hmem (List.mem_append_right _ (List.mem_singleton_self path))
    · exact hnew other hother (List.mem_append_left _ hmem)

variable {keys asked done more : List String}

theorem exists_withAggregatePaths (done asked : List String) :
    ∃ more, withAggregatePaths done asked = done ++ more ∧ NewAggregates done more := by
  induction asked generalizing done with
  | nil => exact ⟨[], (List.append_nil done).symm, .nil, by simp, by simp⟩
  | cons path rest ih =>
    rw [withAggregatePaths, List.foldl_cons]
    split
    case isTrue hadd =>
      obtain ⟨more, hmore, hnew⟩ := ih (done ++ [path])
      refine ⟨path :: more, hmore.trans (List.append_assoc ..), newAggregates_cons.2 ⟨?_, hnew⟩⟩
      simpa using hadd
    case isFalse => exact ih done

/-- Asked for alone, new aggregates are added as they are. -/
theorem withAggregatePaths_new (h : NewAggregates done more) :
    withAggregatePaths done more = done ++ more := by
  induction more generalizing done with
  | nil => exact (List.append_nil done).symm
  | cons path rest ih =>
    obtain ⟨⟨haggregate, hnew⟩, hrest⟩ := newAggregates_cons.1 h
    rw [withAggregatePaths, List.foldl_cons, if_pos (by simpa using ⟨haggregate, hnew⟩)]
    exact (ih hrest).trans (List.append_assoc ..)

/-- What is there is not added. -/
theorem withAggregatePaths_within (h : asked ⊆ done) : withAggregatePaths done asked = done := by
  induction asked with
  | nil => rfl
  | cons path rest ih =>
    obtain ⟨hpath, hrest⟩ := List.cons_subset.1 h
    rw [withAggregatePaths, List.foldl_cons, if_neg (by simp [hpath])]
    exact ih hrest

theorem withAggregatePaths_append (done asked others : List String) :
    withAggregatePaths done (asked ++ others) =
      withAggregatePaths (withAggregatePaths done asked) others :=
  List.foldl_append ..

theorem exists_groupPaths (keys asked : List String) :
    ∃ more, groupPaths keys asked = keys ++ more ∧ NewAggregates keys more ∧
      (keys ++ more).any Member.isRowCount = true := by
  obtain ⟨more, hmore, hnodup, haggregate, hnew⟩ := exists_withAggregatePaths keys asked
  rw [groupPaths, hmore]
  split
  case isTrue hcount => exact ⟨more, rfl, ⟨hnodup, haggregate, hnew⟩, hcount⟩
  case isFalse hcount =>
    have hrow : Member.isRowCount rowCountMember = true := by decide +kernel
    have hnone : rowCountMember ∉ keys ++ more := fun hmem =>
      hcount (List.any_eq_true.2 ⟨_, hmem, hrow⟩)
    obtain ⟨hkeys, hmore⟩ := not_or.1 (mt List.mem_append.2 hnone)
    refine ⟨more ++ [rowCountMember], List.append_assoc .., ⟨?_, ?_, ?_⟩, ?_⟩
    · exact List.concat_eq_append ▸ (List.nodup_concat _ _).2 ⟨hmore, hnodup⟩
    · exact List.forall_mem_append.2
        ⟨haggregate, List.forall_mem_singleton.2 (by rw [isAggregatePath, hrow, Bool.true_or])⟩
    · exact List.forall_mem_append.2 ⟨hnew, List.forall_mem_singleton.2 hkeys⟩
    · simp [hrow]

theorem eraseDups_of_nodup {paths : List String} (h : paths.Nodup) : paths.eraseDups = paths := by
  induction paths with
  | nil => rfl
  | cons path rest ih =>
    obtain ⟨hnot, hrest⟩ := List.nodup_cons.1 h
    have hothers : rest.filter (fun other => !other == path) = rest :=
      List.filter_eq_self.2 fun other hother => by
        rw [Bool.not_eq_true', beq_eq_false_iff_ne]
        exact fun heq => hnot (heq ▸ hother)
    rw [List.eraseDups_cons, hothers, ih hrest]

/-- A query for what the groups show, sorted by some of it, shows nothing else. -/
theorem groupPaths_again {sorted : List String} (h : sorted ⊆ groupPaths keys asked) :
    groupPaths keys ((groupPaths keys asked).eraseDups ++ sorted) = groupPaths keys asked := by
  obtain ⟨more, hmore, hnew, hcount⟩ := exists_groupPaths keys asked
  rw [hmore] at h ⊢
  have hdups : (keys ++ more).eraseDups = keys.eraseDups ++ more := by
    have hremoved : more.removeAll keys = more :=
      List.filter_eq_self.2 fun path hpath => by simpa using hnew.new path hpath
    rw [List.eraseDups_append, hremoved, eraseDups_of_nodup hnew.nodup]
  have hall : withAggregatePaths keys (keys.eraseDups ++ more ++ sorted) = keys ++ more := by
    rw [withAggregatePaths_append, withAggregatePaths_append,
      withAggregatePaths_within fun path hpath => List.mem_eraseDups.1 hpath,
      withAggregatePaths_new hnew, withAggregatePaths_within h]
  rw [groupPaths, hdups, hall, if_pos hcount]

end Plan

/-! ### Queries for the groups alone -/

/-- The paths that a query shows and is sorted by. -/
def Query.asked (s : Schema) (e : Entity) (q : Query) : List String :=
  Member.expand s e q.members ++ q.sorting.flatMap (·.members)

/-- The query shows, and is sorted by, columns of the groups of `q` only, and asks for the same
groups: for the rows under the same filter, by the same keys, with the same aggregates. -/
structure Query.AsksGroupsOf (s : Schema) (e : Entity) (grouping : Grouping) (other q : Query) :
    Prop where
  entity : other.entity = q.entity
  filter : other.filter = q.filter
  grouped : other.grouping = some grouping
  within : other.asked s e ⊆ Plan.groupPaths grouping.members (q.asked s e)
  same : Plan.groupPaths grouping.members (other.asked s e) =
    Plan.groupPaths grouping.members (q.asked s e)

/-- The query shows all columns of its groups, and is sorted by those of them that it was sorted
by. -/
def Query.ofGroups (s : Schema) (e : Entity) (grouping : Grouping) (q : Query) : Query :=
  let paths := Plan.groupPaths grouping.members (q.asked s e)
  { q with
    members := paths
    sorting := q.sorting.map fun sorting =>
      { sorting with members := sorting.members.filter paths.contains } }

/-! ### What grouped queries resolve -/

namespace Plan

open Member (Column Gathered)

variable {s : Schema} {root g : JoinGraph} {f : Filter} {grouping : Grouping}

/-- All that a grouped query resolves when these paths are asked for, one after another. -/
def groupedPaths (f : Filter) (grouping : Grouping) (asked : List String) : List String :=
  asked ++ (grouping.members ++ (f.conditions.map (·.member) ++
    (grouping.having.conditions.map (·.member) ++ [rowCountMember])))

/-- The columns of a grouped query with the paths they were resolved from. -/
structure Groups (s : Schema) (root : JoinGraph) (f : Filter) (grouping : Grouping)
    (paths : List String) (asked columns : List Column) (c : GroupedColumns) : Prop where
  gathered : Gathered s root (groupedPaths f grouping paths) c.graph columns
  shown : asked.map (·.path) = paths
  keys : c.keys.map (·.path) = grouping.members
  filtered : c.filtered.map (·.path) = (f.conditions ++ grouping.having.conditions).map (·.member)
  inner : c.inner.map (·.path) = groupPaths grouping.members paths
  asked_subset : asked ⊆ columns
  keys_subset : c.keys ⊆ columns
  filtered_subset : c.filtered ⊆ columns
  inner_subset : c.inner ⊆ columns
  beside : c.beside ++ c.besideSorted = asked.filter (!c.inner.contains ·)

/-- Where nothing but columns of the groups is asked for, there is nothing beside them. -/
theorem Groups.beside_eq_nil {paths : List String} {asked columns : List Column}
    {c : GroupedColumns} (h : Groups s root f grouping paths asked columns c)
    (hwithin : paths ⊆ groupPaths grouping.members paths) :
    c.beside ++ c.besideSorted = [] := by
  rw [h.beside, List.filter_eq_nil_iff]
  intro column hcolumn
  have hpath : column.path ∈ c.inner.map (·.path) :=
    h.inner ▸ hwithin (h.shown ▸ List.mem_map_of_mem hcolumn)
  simpa using ((byPath_of_gathered h.gathered).mem_iff h.inner_subset
    (h.asked_subset hcolumn)).2 hpath

/-- The columns of groups can be read. -/
theorem Groups.read_inner {paths : List String} {asked columns : List Column} {c : GroupedColumns}
    (h : Groups s root f grouping paths asked columns c) {path : String}
    (hpath : path ∈ groupPaths grouping.members paths) :
    path ∈ groupedPaths f grouping paths ∧ ∃ r, Member.read s root.root path = .ok r := by
  rw [← h.inner] at hpath
  obtain ⟨column, hcolumn, rfl⟩ := List.mem_map.1 hpath
  obtain ⟨path, hmem, r, hr, hreads⟩ := h.gathered.mem_columns (h.inner_subset hcolumn)
  rw [hreads.path]
  exact ⟨hmem, r, hr⟩

/-- There is a query for the groups alone. -/
theorem Groups.asksGroupsOf {e : Entity} {q : Query} {asked columns : List Column}
    {c : GroupedColumns}
    (h : Groups s (.ofRoot e.id) q.filter grouping (q.asked s e) asked columns c)
    (hentity : s.entity e.id = e) (hgrouping : q.grouping = some grouping) :
    (q.ofGroups s e grouping).AsksGroupsOf s e grouping q := by
  have hne : groupPaths grouping.members (q.asked s e) ≠ [] := fun hnil => by
    obtain ⟨more, hmore, -, hcount⟩ := exists_groupPaths grouping.members (q.asked s e)
    rw [← hmore, hnil] at hcount
    cases hcount
  have hshown : Member.expand s e (groupPaths grouping.members (q.asked s e)) =
      (groupPaths grouping.members (q.asked s e)).eraseDups := by
    have hread : ∀ path ∈ groupPaths grouping.members (q.asked s e),
        ∃ r, Member.read s e.id path = .ok r := fun path hpath => (h.read_inner hpath).2
    have hexpand := Member.expand_of_read hne hread
    rwa [hentity] at hexpand
  have hsorted : (q.ofGroups s e grouping).sorting.flatMap (·.members) ⊆
      groupPaths grouping.members (q.asked s e) := by
    intro path hpath
    rw [Query.ofGroups, List.flatMap_map] at hpath
    obtain ⟨sorting, -, hmem⟩ := List.mem_flatMap.1 hpath
    simpa using (List.mem_filter.1 hmem).2
  refine ⟨rfl, rfl, hgrouping, ?_, ?_⟩
  · rw [Query.asked, List.append_subset]
    refine ⟨fun path hpath => ?_, hsorted⟩
    rw [Query.ofGroups, hshown] at hpath
    exact List.mem_eraseDups.1 hpath
  · have hasked : (q.ofGroups s e grouping).asked s e =
        (groupPaths grouping.members (q.asked s e)).eraseDups ++
          (q.ofGroups s e grouping).sorting.flatMap (·.members) := congrArg (· ++ _) hshown
    rw [hasked]
    exact groupPaths_again hsorted

section Told
variable (ht : s.TellsApart) (hs : s.Ascends) (hacyclic : s.Acyclic)
  {paths : List String} {display sorted : List Column}
  (hg : Gathered s root paths g (display ++ sorted))
include ht hs hacyclic hg

theorem groups_of_steps {keyed conditioned tested : JoinGraph} {conditions having : List Column}
    {rowCount : Column} {c : GroupedColumns}
    (hkeys : Member.resolveEach s g grouping.members = .ok (keyed, c.keys))
    (hconditions : resolveConditions s keyed f = .ok (conditioned, conditions))
    (hhaving : resolveConditions s conditioned grouping.having = .ok (tested, having))
    (hrowCount : Member.resolve s tested rowCountMember = (c.graph, .ok rowCount))
    (hinner : c.inner = innerColumns rowCount c.keys (display ++ sorted))
    (hfiltered : c.filtered = conditions ++ having)
    (hbeside : c.beside = display.filter (!c.inner.contains ·))
    (hsorted : c.besideSorted = sorted.filter (!c.inner.contains ·)) :
    ∃ columns, Groups s root f grouping paths (display ++ sorted) columns c := by
  have hkeyed := Member.resolveEach_gathered ht hs hacyclic hg.homed hkeys
  have hfilter := Member.resolveEach_gathered ht hs hacyclic hkeyed.homed hconditions
  have htested := Member.resolveEach_gathered ht hs hacyclic hfilter.homed hhaving
  have hlast : Gathered s tested [rowCountMember] c.graph [rowCount] := by
    have hfound : (Member.resolve s tested rowCountMember).2 = .ok rowCount := by rw [hrowCount]
    have hcount := Member.resolve_gathered ht hs hacyclic htested.homed hfound
    rwa [hrowCount] at hcount
  have hall := hg.append (hkeyed.append (hfilter.append (htested.append hlast)))
  have hasked : display ++ sorted ⊆ display ++ sorted ++ (c.keys ++ (conditions ++
      (having ++ [rowCount]))) := List.subset_append_left ..
  have hkeys : c.keys ⊆ display ++ sorted ++ (c.keys ++ (conditions ++ (having ++ [rowCount]))) :=
    List.subset_append_of_subset_right _ (List.subset_append_left ..)
  refine ⟨_, hall, hg.map_path, hkeyed.map_path, ?_, ?_, hasked, hkeys, ?_, ?_, ?_⟩
  · rw [hfiltered, List.map_append, List.map_append, hfilter.map_path, htested.map_path]
  · rw [hinner, innerColumns_paths (byPath_of_gathered hall) hkeys hasked
      (List.singleton_injective hlast.map_path), hkeyed.map_path, hg.map_path]
  · have hboth : conditions ++ having ⊆ conditions ++ (having ++ [rowCount]) := by
      rw [← List.append_assoc]
      exact List.subset_append_left ..
    rw [hfiltered]
    exact fun column hcolumn => List.mem_append_right _ (List.mem_append_right _ (hboth hcolumn))
  · intro column hcolumn
    obtain hkey | hcolumn | rfl := mem_innerColumns (hinner ▸ hcolumn)
    · exact hkeys hkey
    · exact hasked hcolumn
    · simp
  · rw [hbeside, hsorted, List.filter_append]

theorem groups_of_resolveGrouped {c : GroupedColumns}
    (h : resolveGrouped s g f grouping display sorted = .ok c) :
    ∃ columns, Groups s root f grouping paths (display ++ sorted) columns c := by
  obtain ⟨_, _, _, _, _, _, hkeys, hconditions, hhaving, hrowCount, hinner, hfiltered, hbeside,
    hsorted, -⟩ := resolveGrouped_ok h
  exact groups_of_steps ht hs hacyclic hg hkeys hconditions hhaving hrowCount hinner hfiltered
    hbeside hsorted

/-- Groups whose members can be read are resolved when nothing else is asked for. -/
theorem exists_resolveGrouped
    (hread : ∀ path ∈ groupedPaths f grouping paths, ∃ r, Member.read s root.root path = .ok r)
    (hwithin : paths ⊆ groupPaths grouping.members paths) :
    ∃ c, resolveGrouped s g f grouping display sorted = .ok c := by
  have hothers : ∀ path ∈ grouping.members ++ (f.conditions.map (·.member) ++
      (grouping.having.conditions.map (·.member) ++ [rowCountMember])),
      ∃ r, Member.read s g.root path = .ok r := fun path hpath => by
    rw [hg.grows.root]
    exact hread path (List.mem_append_right _ hpath)
  obtain ⟨graph, columns, hrun⟩ := Member.exists_resolveEach ht hs hacyclic hg.homed hothers
  obtain ⟨keyed, keys, _, hkeys, hrun, -⟩ := resolveEach_append_ok hrun
  obtain ⟨conditioned, conditions, _, hconditions, hrun, -⟩ := resolveEach_append_ok hrun
  obtain ⟨tested, having, _, hhaving, hrun, -⟩ := resolveEach_append_ok hrun
  obtain ⟨rowCount, hrowCount, -⟩ := resolveEach_singleton_ok hrun
  let inner := innerColumns rowCount keys (display ++ sorted)
  let c : GroupedColumns := ⟨graph, keys, inner, conditions ++ having,
    display.filter (!inner.contains ·), sorted.filter (!inner.contains ·)⟩
  obtain ⟨columns, hgroups⟩ := groups_of_steps (c := c) ht hs hacyclic hg hkeys hconditions
    hhaving hrowCount rfl rfl rfl rfl
  have hchecked : (c.beside ++ c.besideSorted).forM (checkBeside s c.graph keys) = .ok () := by
    rw [hgroups.beside_eq_nil hwithin]
    rfl
  refine ⟨c, ?_⟩
  simp only [resolveGrouped, Except.bind_eq_ok, Except.pure_eq_ok, Prod.exists]
  refine ⟨keyed, keys, hkeys, conditioned, conditions, hconditions, tested, having, hhaving,
    rowCount, ?_⟩
  rw [hrowCount]
  exact ⟨rfl, (), hchecked, rfl⟩

end Told

section Queries
variable (ht : s.TellsApart) (hs : s.Ascends) (hacyclic : s.Acyclic)
include ht hs hacyclic

theorem exists_resolveSorting (hg : g.Homed s) {sorting : List Sorting}
    (hread : ∀ path ∈ sorting.flatMap (·.members), ∃ r, Member.read s g.root path = .ok r) :
    ∃ g' sorted, resolveSorting s g sorting = .ok (g', sorted) := by
  induction sorting generalizing g with
  | nil => exact ⟨g, [], rfl⟩
  | cons first rest ih =>
    rw [List.flatMap_cons, List.forall_mem_append] at hread
    obtain ⟨grown, columns, hcolumns⟩ := Member.exists_resolveEach ht hs hacyclic hg hread.1
    have hgrown := Member.resolveEach_gathered ht hs hacyclic hg hcolumns
    obtain ⟨g', others, hothers⟩ := ih hgrown.homed (hgrown.grows.root ▸ hread.2)
    refine ⟨g', columns.map (·, first.direction) ++ others, ?_⟩
    simp only [resolveSorting, Except.bind_eq_ok, Except.pure_eq_ok, Prod.exists]
    exact ⟨grown, columns, hcolumns, g', others, hothers, rfl⟩

variable {e : Entity} {q : Query} {n n' : Numbering} {l : Layout} {shown count : Sql.Select}
  (hgrouping : q.grouping = some grouping) (he : entityNamed s q.entity = .ok e)
include hgrouping he

theorem groups_of_querySelects (h : querySelects s q n = .ok ((l, shown, count), n')) :
    ∃ asked columns c sorted,
      Groups s (.ofRoot e.id) q.filter grouping (q.asked s e) asked columns c ∧
      groupedSelects s c q.filter grouping sorted n = .ok ((l, shown, count), n') := by
  obtain ⟨e', g, display, grown, sorted, he', hdisplay, hsorting, hcases⟩ := querySelects_ok h
  obtain rfl := Except.ok.inj (he.symm.trans he')
  obtain ⟨inner, hnone, -⟩ | ⟨grouping', c, hsome, hgrouped, hselects⟩ := hcases
  · exact absurd (hgrouping.symm.trans hnone) (by simp)
  · obtain rfl := Option.some.inj (hgrouping.symm.trans hsome)
    have hshown := Member.resolveEach_gathered ht hs hacyclic (JoinGraph.homed_ofRoot s e.id)
      hdisplay
    have hsorted := Member.resolveEach_gathered ht hs hacyclic hshown.homed
      (resolveSorting_ok hsorting)
    obtain ⟨columns, hgroups⟩ :=
      groups_of_resolveGrouped ht hs hacyclic (hshown.append hsorted) hgrouped
    exact ⟨_, columns, c, sorted, hgroups, hselects⟩

/-- A query for nothing but groups comes to its selects when its members can be read. -/
theorem exists_groups
    (hread : ∀ path ∈ groupedPaths q.filter grouping (q.asked s e),
      ∃ r, Member.read s e.id path = .ok r)
    (hwithin : q.asked s e ⊆ groupPaths grouping.members (q.asked s e)) :
    ∃ asked columns c sorted,
      Groups s (.ofRoot e.id) q.filter grouping (q.asked s e) asked columns c ∧
      ∀ {n n' l shown count}, groupedSelects s c q.filter grouping sorted n =
        .ok ((l, shown, count), n') → querySelects s q n = .ok ((l, shown, count), n') := by
  obtain ⟨hasked, -⟩ := List.forall_mem_append.1 hread
  obtain ⟨hmembers, hsortings⟩ := List.forall_mem_append.1 hasked
  obtain ⟨g, display, hdisplay⟩ :=
    Member.exists_resolveEach ht hs hacyclic (JoinGraph.homed_ofRoot s e.id) hmembers
  have hshown := Member.resolveEach_gathered ht hs hacyclic (JoinGraph.homed_ofRoot s e.id) hdisplay
  have hsortings : ∀ path ∈ q.sorting.flatMap (·.members),
      ∃ r, Member.read s g.root path = .ok r := by
    rw [hshown.grows.root]
    exact hsortings
  obtain ⟨grown, sorted, hsorting⟩ := exists_resolveSorting ht hs hacyclic hshown.homed hsortings
  have hsorted := Member.resolveEach_gathered ht hs hacyclic hshown.homed
    (resolveSorting_ok hsorting)
  have hall := hshown.append hsorted
  obtain ⟨c, hgrouped⟩ := exists_resolveGrouped ht hs hacyclic hall hread hwithin
  obtain ⟨columns, hgroups⟩ := groups_of_resolveGrouped ht hs hacyclic hall hgrouped
  refine ⟨_, columns, c, sorted, hgroups, fun {n n' l shown count} hselects => ?_⟩
  simp only [querySelects, bind_ok, resolved_ok, hgrouping]
  exact ⟨e, n, ⟨he, rfl⟩, (g, display), n, ⟨hdisplay, rfl⟩, (grown, sorted), n, ⟨hsorting, rfl⟩,
    c, n, ⟨hgrouped, rfl⟩, hselects⟩

end Queries

end Plan
end EntityQuery
