import EntityQuery.Proofs.Member.Spelling
import EntityQuery.Proofs.Member.Trail

/-! Paths read without a graph.

What a path stands for does not depend on the joins that are there. Its names say which navigations
to follow, those to bases included, and which column to take (`read`), and resolving it in any graph
does just that (`resolve_reads`): it fails as the reading fails, or it leads from the root over the
navigations of the reading to the scope of the column. So several paths resolve when each of them
can be read (`exists_resolveEach`), and the graph has then the trails that they pass, and no others
(`Gathered`). -/
namespace EntityQuery.Member

open JoinGraph (Homed Leads climbTo)

/-! ### Reading -/

/-- What a path says: the navigations to follow from the root, and what to take where they lead. -/
structure Reading where
  way : List Navigation
  column : String
  measure : Measure
deriving DecidableEq, Repr

/-- The way from an entity to the one that holds a last name, and the column. -/
def readLeaf (s : Schema) (id : Nat) (name : String) :
    Except MemberFault (List Navigation × String) :=
  match s.nearestProperty? (s.entity id) name with
  | some (owner, property) =>
    if property.ignored then .error (.notMapped name)
    else .ok (s.ascent id owner.id, property.column)
  | none =>
    if (s.nearestNavigation? (s.entity id) name).isSome then .error (.isNavigation name)
    else .ok ([], name)

/-- The way that names lead from an entity, and the column they name. -/
def readNames (s : Schema) (id : Nat) : List String → Except MemberFault (List Navigation × String)
  | [] => .error .emptySegment
  | [name] => readLeaf s id name
  | name :: next :: rest =>
    match s.nearestNavigation? (s.entity id) name with
    | none => .error (.notNavigation name (s.entity id).name)
    | some (owner, n) =>
      (readNames s n.target (next :: rest)).map fun r => (s.ascent id owner.id ++ n :: r.1, r.2)

section
variable {s : Schema} {id : Nat} {name next : String} {rest : List String}

theorem readLeaf_some {owner : Entity} {p : Property}
    (hp : s.nearestProperty? (s.entity id) name = some (owner, p)) :
    readLeaf s id name =
      if p.ignored then .error (.notMapped name) else .ok (s.ascent id owner.id, p.column) := by
  rw [readLeaf, hp]

theorem readNames_none (hn : s.nearestNavigation? (s.entity id) name = none) :
    readNames s id (name :: next :: rest) = .error (.notNavigation name (s.entity id).name) := by
  rw [readNames, hn]

theorem readNames_some {owner : Entity} {n : Navigation}
    (hn : s.nearestNavigation? (s.entity id) name = some (owner, n)) :
    readNames s id (name :: next :: rest) = (readNames s n.target (next :: rest)).map fun r =>
      (s.ascent id owner.id ++ n :: r.1, r.2) := by
  rw [readNames, hn]

end

def readDotted (s : Schema) (id : Nat) (path : String) :
    Except MemberFault (List Navigation × String) :=
  let names := segments path
  if names.any (· == "") then .error .emptySegment else readNames s id names

/-- What a path says, asked of an entity. -/
def read (s : Schema) (id : Nat) (path : String) : Except MemberFault Reading :=
  if isRowCount path then .ok ⟨[], "COUNT", .rowCount⟩
  else
    match applied? path with
    | none => (readDotted s id path).map fun r => ⟨r.1, r.2, .value⟩
    | some (function, argument) =>
      if (Text.trim argument).toList.contains '(' then .error .nestedAggregate
      else
        (readDotted s id (Text.trim argument)).map fun r =>
          ⟨r.1, r.2, .aggregate (Text.capitals function)⟩

/-- What is read of a path to a member is read of its names. -/
theorem readNames_of_read {s : Schema} {id : Nat} {path : String}
    (hmember : isRowCount path = false) {r : Reading}
    (h : read s id path = .ok r) : readNames s id (named path) = .ok (r.way, r.column) := by
  have hdotted : ∀ {target measure}, (readDotted s id target).map
      (fun found => (⟨found.1, found.2, measure⟩ : Reading)) = .ok r →
      readNames s id (segments target) = .ok (r.way, r.column) := by
    intro target measure h
    obtain ⟨found, hfound, rfl⟩ := Except.map_eq_ok.1 h
    simp only [readDotted] at hfound
    split at hfound
    · cases hfound
    · exact hfound
  unfold read at h
  rw [hmember, if_neg Bool.false_ne_true] at h
  unfold named
  cases happlied : applied? path with
  | none =>
    rw [happlied] at h
    exact hdotted h
  | some applied =>
    rw [happlied] at h
    simp only at h
    split at h
    · cases h
    · exact hdotted h

/-! ### Resolving as read -/

variable {ε : Type} {s : Schema} {g g' g'' : JoinGraph} {scope : Nat} {path : String}

/-- A column of a graph is what a path says. -/
structure Column.Reads (g : JoinGraph) (path : String) (r : Reading) (c : Column) : Prop where
  path : c.path = path
  column : c.column = r.column
  measure : c.measure = r.measure
  reached : c.scope ≤ g.joins.length
  trail : g.trail c.scope = r.way

theorem Column.Reads.grows {c : Column} {r : Reading} (h : c.Reads g path r) (hgrows : g.Grows g')
    (hg : g.Rooted) (hg' : g'.Rooted) : c.Reads g' path r :=
  ⟨h.path, h.column, h.measure, Nat.le_trans h.reached hgrows.length_le,
    (hgrows.trail hg hg' h.reached).trans h.trail⟩

/-- There is one column of a graph for what a path says. -/
theorem Column.Reads.unique {c c' : Column} {r : Reading} (hg : g.Homed s) (h : c.Reads g path r)
    (h' : c'.Reads g path r) : c = c' := by
  have hscope := hg.trail_injective h.reached h'.reached (h.trail.trans h'.trail.symm)
  obtain ⟨_, _, _, _⟩ := c
  obtain ⟨_, _, _, _⟩ := c'
  rw [Column.mk.injEq]
  exact ⟨h.path.trans h'.path.symm, hscope, h.column.trans h'.column.symm,
    h.measure.trans h'.measure.symm⟩

/-- A way that was read is followed to the scope where it leads. -/
def Followed (s : Schema) (g : JoinGraph) (scope : Nat)
    (found : JoinGraph × Except MemberFault (Nat × String))
    (reading : Except MemberFault (List Navigation × String)) : Prop :=
  Except.Alike (fun (place : Nat × String) (r : List Navigation × String) =>
    place.2 = r.2 ∧ Leads s g scope r.1 found.1 place.1) found.2 reading

/-- A path is resolved to a column of what was read. -/
def Resolved (s : Schema) (g : JoinGraph) (path : String)
    (found : JoinGraph × Except ε Column) (reading : Except ε Reading) : Prop :=
  Except.Alike (fun (c : Column) r => c.Reads found.1 path r ∧ Leads s g 0 r.way found.1 c.scope)
    found.2 reading

theorem Resolved.mapError {δ : Type} {found : JoinGraph × Except ε Column}
    {reading : Except ε Reading} (h : Resolved s g path found reading) (f : ε → δ) :
    Resolved s g path (found.1, found.2.mapError f) (reading.mapError f) :=
  Except.Alike.mapError f h

/-- A way that goes on where another has led goes on from its start. -/
theorem Followed.after {next : Nat} {way : List Navigation}
    {found : JoinGraph × Except MemberFault (Nat × String)}
    {reading : Except MemberFault (List Navigation × String)}
    (h : Followed s g' next found reading) (hway : Leads s g scope way g' next) :
    Followed s g scope found (reading.map fun r => (way ++ r.1, r.2)) := by
  obtain ⟨grown, place⟩ := found
  cases h with
  | error fault => exact .error fault
  | ok h => exact .ok ⟨h.1, hway.trans h.2⟩

/-- Follows the names of a path from a scope. -/
def along (s : Schema) (g : JoinGraph) (scope : Nat) (names : List String) :
    JoinGraph × Except MemberFault (Nat × String) :=
  finish s (names.getLastD "") (walk s g scope names.dropLast).2 (walk s g scope names.dropLast).1

theorem along_none {name next : String} {rest : List String}
    (hn : s.nearestNavigation? (g.entity s scope) name = none) :
    along s g scope (name :: next :: rest) =
      (g, .error (.notNavigation name (g.entity s scope).name)) := by
  rw [along, List.dropLast_cons_cons, walk_none hn]
  rfl

theorem along_some {name next : String} {rest : List String} {owner : Entity} {n : Navigation}
    (hn : s.nearestNavigation? (g.entity s scope) name = some (owner, n)) :
    along s g scope (name :: next :: rest) =
      along s (hop s scope owner.id n g).1 (hop s scope owner.id n g).2 (next :: rest) := by
  rw [along, List.dropLast_cons_cons, walk_some hn]
  rfl

section Told
variable (ht : s.TellsApart) (hs : s.Ascends) (hacyclic : s.Acyclic)
include ht hs hacyclic

/-- A name leads over the bases up to the entity that declares the navigation, and then over it. -/
theorem leads_hop (hg : g.Homed s) (hscope : scope ≤ g.joins.length) {name : String}
    {owner : Entity} {n : Navigation}
    (hn : s.nearestNavigation? (g.entity s scope) name = some (owner, n)) :
    Leads s g scope (s.ascent (g.entityAt scope) owner.id ++ [n]) (hop s scope owner.id n g).1
        (hop s scope owner.id n g).2 ∧
      (hop s scope owner.id n g).1.entityAt (hop s scope owner.id n g).2 = n.target := by
  obtain ⟨hmem, hne, hown⟩ := nearestNavigation?_owner hn
  have hclimb := JoinGraph.leads_climbTo ht hs hacyclic hg hscope owner.id
  obtain ⟨-, -, hat⟩ := JoinGraph.homed_climbTo ht hs hacyclic hg hscope hmem hne
  have horigin : n ∈ ((climbTo s g scope owner.id).1.entity s
      (climbTo s g scope owner.id).2).navigations := by
    rw [JoinGraph.entity, hat, hs.entity_id hmem hne]
    exact hown
  exact ⟨hclimb.trans (JoinGraph.leads_reach ht hclimb.homed hclimb.reached horigin),
    JoinGraph.entityAt_reach ht hclimb.homed hclimb.reached horigin⟩

theorem followed_leaf (hg : g.Homed s) (hscope : scope ≤ g.joins.length) (name : String) :
    Followed s g scope (leaf s g scope name) (readLeaf s (g.entityAt scope) name) := by
  have hentity : s.entity (g.entityAt scope) = g.entity s scope := rfl
  rw [Followed, readLeaf, hentity]
  cases hp : s.nearestProperty? (g.entity s scope) name with
  | some found =>
    obtain ⟨owner, property⟩ := found
    cases hi : property.ignored with
    | true =>
      simp only [leaf, hp, hi, if_true]
      exact .error _
    | false =>
      simp only [leaf, hp, hi, Bool.false_eq_true, if_false]
      exact .ok ⟨rfl, JoinGraph.leads_climbTo ht hs hacyclic hg hscope owner.id⟩
  | none =>
    by_cases hn : (s.nearestNavigation? (g.entity s scope) name).isSome
    · simp only [leaf, hp, hn, if_true]
      exact .error _
    · simp only [leaf, hp, hn]
      exact .ok ⟨rfl, .stay hg hscope⟩

theorem followed_along (hg : g.Homed s) (hscope : scope ≤ g.joins.length) (names : List String)
    (hne : names ≠ []) :
    Followed s g scope (along s g scope names) (readNames s (g.entityAt scope) names) := by
  induction names generalizing g scope with
  | nil => exact absurd rfl hne
  | cons name rest ih =>
    cases rest with
    | nil => exact followed_leaf ht hs hacyclic hg hscope name
    | cons next rest =>
      cases hn : s.nearestNavigation? (g.entity s scope) name with
      | none =>
        rw [along_none hn, readNames_none hn]
        exact .error _
      | some found =>
        obtain ⟨owner, n⟩ := found
        obtain ⟨hhop, htarget⟩ := leads_hop ht hs hacyclic hg hscope hn
        have hrest := ih hhop.homed hhop.reached (List.cons_ne_nil _ _)
        rw [htarget] at hrest
        rw [along_some hn, readNames_some hn]
        simpa only [List.append_assoc, List.singleton_append] using hrest.after hhop

theorem followed_follow (hg : g.Homed s) (path : String) :
    Followed s g 0 (follow s g path) (readDotted s g.root path) := by
  unfold readDotted
  by_cases hempty : (segments path).any (· == "")
  · rw [follow, if_pos hempty, if_pos hempty]
    exact .error _
  · rw [follow_eq hempty, if_neg hempty]
    exact followed_along ht hs hacyclic hg (Nat.zero_le _) _ (segments_ne_nil path)

theorem resolved_measured (hg : g.Homed s) (path target : String) (measure : Measure) :
    Resolved s g path (measured s path target measure g)
      ((readDotted s g.root target).map fun r => ⟨r.1, r.2, measure⟩) := by
  refine (followed_follow ht hs hacyclic hg target).map fun place r ⟨hcolumn, hleads⟩ => ?_
  refine ⟨⟨rfl, hcolumn, rfl, hleads.reached, hleads.trail.trans ?_⟩, hleads⟩
  rw [JoinGraph.trail_zero, List.nil_append]

theorem resolved_locate (hg : g.Homed s) (path : String) :
    Resolved s g path (locate s g path) (read s g.root path) := by
  unfold read
  by_cases hcount : isRowCount path
  · rw [if_pos hcount, locate, if_pos hcount]
    exact .ok ⟨⟨rfl, rfl, rfl, Nat.zero_le _, JoinGraph.trail_zero g⟩, .stay hg (Nat.zero_le _)⟩
  · rw [if_neg hcount]
    cases happlied : applied? path with
    | none =>
      rw [locate_value hcount happlied]
      exact resolved_measured ht hs hacyclic hg path path .value
    | some applied =>
      obtain ⟨function, argument⟩ := applied
      by_cases hnested : '(' ∈ (Text.trim argument).toList
      · simp only [locate, hcount, happlied, hnested, List.contains_iff_mem]
        exact .error _
      · rw [locate_aggregate hcount happlied hnested]
        simp only [List.contains_iff_mem, hnested, if_false]
        exact resolved_measured ht hs hacyclic hg path _ _

/-- **A path is resolved as it is read**, in whatever graph: it fails as the reading fails, and
otherwise leads from the root over what was read. -/
theorem resolve_reads (hg : g.Homed s) (path : String) :
    Resolved s g path (resolve s g path) ((read s g.root path).mapError fun fault =>
      Error.ofCause (.member (g.entity s 0).name path fault)) := by
  rw [resolve_eq]
  exact (resolved_locate ht hs hacyclic hg path).mapError _

/-- What resolves is what can be read. -/
theorem read_of_resolve (hg : g.Homed s) {c : Column} (h : (resolve s g path).2 = .ok c) :
    ∃ r, read s g.root path = .ok r ∧ c.Reads (resolve s g path).1 path r ∧
      Leads s g 0 r.way (resolve s g path).1 c.scope := by
  obtain ⟨r, hr, hreads⟩ := (resolve_reads ht hs hacyclic hg path).ok_left h
  exact ⟨r, Except.mapError_eq_ok.1 hr, hreads⟩

theorem resolve_of_read (hg : g.Homed s) {r : Reading} (h : read s g.root path = .ok r) :
    ∃ c, (resolve s g path).2 = .ok c ∧ c.Reads (resolve s g path).1 path r ∧
      Leads s g 0 r.way (resolve s g path).1 c.scope :=
  (resolve_reads ht hs hacyclic hg path).ok_right (Except.mapError_eq_ok.2 h)

end Told

/-! ### Several paths -/

/-- Paths were resolved one after another, from `g` to `g'`: the columns are what was read, and
nothing was joined but what leads to them. -/
structure Gathered (s : Schema) (g : JoinGraph) (paths : List String) (g' : JoinGraph)
    (columns : List Column) : Prop where
  homed : g'.Homed s
  grows : g.Grows g'
  columns : List.Forall₂ (fun path c => ∃ r, read s g.root path = .ok r ∧ c.Reads g' path r)
    paths columns
  has : ∀ t, g'.Has t ↔
    g.Has t ∨ ∃ path ∈ paths, ∃ r, read s g.root path = .ok r ∧ t <+: r.way

namespace Gathered
variable {paths paths' : List String} {columns columns' : List Column}

theorem nil (hg : g.Homed s) : Gathered s g [] g [] :=
  ⟨hg, .refl g, .nil, fun t => by simp⟩

theorem append (h : Gathered s g paths g' columns) (h' : Gathered s g' paths' g'' columns') :
    Gathered s g (paths ++ paths') g'' (columns ++ columns') where
  homed := h'.homed
  grows := h.grows.trans h'.grows
  columns := by
    refine List.rel_append (h.columns.imp ?_) (h.grows.root ▸ h'.columns)
    exact fun path c ⟨r, hr, hreads⟩ =>
      ⟨r, hr, hreads.grows h'.grows h.homed.rooted h'.homed.rooted⟩
  has t := by
    rw [h'.has, h.has, h.grows.root, or_assoc]
    simp only [List.mem_append, or_and_right, exists_or]

theorem map_path (h : Gathered s g paths g' columns) : columns.map (·.path) = paths := by
  obtain ⟨-, -, hcolumns, -⟩ := h
  induction hcolumns with
  | nil => rfl
  | cons h _ ih =>
    obtain ⟨r, -, hreads⟩ := h
    rw [List.map_cons, hreads.path, ih]

/-- Each of the paths has its column, and each column is that of a path. -/
theorem mem_paths (h : Gathered s g paths g' columns) (hpath : path ∈ paths) :
    ∃ c ∈ columns, ∃ r, read s g.root path = .ok r ∧ c.Reads g' path r := by
  obtain ⟨i, hi, rfl⟩ := List.mem_iff_getElem.1 hpath
  have hlength := h.columns.length_eq
  exact ⟨columns[i], List.getElem_mem _, h.columns.get hi (hlength ▸ hi)⟩

theorem mem_columns (h : Gathered s g paths g' columns) {c : Column} (hc : c ∈ columns) :
    ∃ path ∈ paths, ∃ r, read s g.root path = .ok r ∧ c.Reads g' path r := by
  obtain ⟨i, hi, rfl⟩ := List.mem_iff_getElem.1 hc
  have hlength := h.columns.length_eq
  exact ⟨paths[i], List.getElem_mem _, h.columns.get (hlength ▸ hi) hi⟩

end Gathered

section Told
variable (ht : s.TellsApart) (hs : s.Ascends) (hacyclic : s.Acyclic)
include ht hs hacyclic

theorem resolve_gathered (hg : g.Homed s) {c : Column} (h : (resolve s g path).2 = .ok c) :
    Gathered s g [path] (resolve s g path).1 [c] := by
  obtain ⟨r, hr, hreads, hleads⟩ := read_of_resolve ht hs hacyclic hg h
  refine ⟨hleads.homed, hleads.grows, .cons ⟨r, hr, hreads⟩ .nil, fun t => ?_⟩
  rw [hleads.has]
  simp [hr]

theorem resolveEach_gathered (hg : g.Homed s) {paths : List String} {columns : List Column}
    (h : resolveEach s g paths = .ok (g', columns)) : Gathered s g paths g' columns := by
  induction paths generalizing g columns with
  | nil =>
    obtain ⟨rfl, rfl⟩ := Prod.mk.inj (Except.ok.inj h)
    exact .nil hg
  | cons path rest ih =>
    simp only [resolveEach, Except.bind_eq_ok, Except.pure_eq_ok, Prod.exists, Prod.mk.injEq] at h
    obtain ⟨c, hc, grown, others, hothers, rfl, rfl⟩ := h
    have hpath := resolve_gathered ht hs hacyclic hg hc
    exact hpath.append (ih hpath.homed hothers)

/-- A path that was resolved comes to its column again. -/
theorem Gathered.again {root : JoinGraph} {paths : List String} {columns : List Column}
    (h : Gathered s root paths g columns) {c : Column} (hc : c ∈ columns) :
    (resolve s g c.path).2 = .ok c := by
  obtain ⟨path, -, r, hr, hreads⟩ := h.mem_columns hc
  rw [← h.grows.root] at hr
  obtain ⟨found, hfound, hreads', hleads⟩ := resolve_of_read ht hs hacyclic h.homed hr
  have hgrown := hreads.grows hleads.grows h.homed.rooted hleads.homed.rooted
  rw [hreads.path, hfound, hreads'.unique hleads.homed hgrown]

/-- Paths that can be read resolve one after another. -/
theorem exists_resolveEach (hg : g.Homed s) {paths : List String}
    (h : ∀ path ∈ paths, ∃ r, read s g.root path = .ok r) :
    ∃ g' columns, resolveEach s g paths = .ok (g', columns) := by
  induction paths generalizing g with
  | nil => exact ⟨g, [], rfl⟩
  | cons path rest ih =>
    obtain ⟨r, hr⟩ := h path (List.mem_cons_self ..)
    obtain ⟨c, hc, -, hleads⟩ := resolve_of_read ht hs hacyclic hg hr
    obtain ⟨g', columns, hrest⟩ := ih hleads.homed fun other hother => by
      rw [hleads.grows.root]
      exact h other (List.mem_cons_of_mem _ hother)
    refine ⟨g', c :: columns, ?_⟩
    simp only [resolveEach, Except.bind_eq_ok, Except.pure_eq_ok]
    exact ⟨c, hc, _, hrest, rfl⟩

end Told

end EntityQuery.Member
