import EntityQuery.Proofs.Member.Followed
import EntityQuery.Proofs.Plan.Compiled
import EntityQuery.Proofs.Plan.Joined
import EntityQuery.Proofs.Plan.Scoping

/-! Nested joins.

Tables that are joined as they are declared, each after its own tables were joined to it, give what
their tree has with nothing flipped (`declaredRows_eq`). A select joins them from left to right
instead, with nested inner joins flipped, and its rows say where that comes to the same
(`nests`). -/
namespace EntityQuery.Plan

open JoinGraph (JoinedRow rowAt)
open Member (Column)
open Sql (Database Frame Join Select isTrue joinRows labelled orAbsent)

variable {s : Schema} {l : Layout} {a : AliasSupply}

/-- Joins rows to rows of a join's target and the tables below that, down to `depth` levels: by
the declared kind and on the key columns alone. -/
def declaredJoin (db : Database) (params : List Value) (s : Schema) (l : Layout) (needed : List Nat)
    (outer : Frame) (depth j : Nat) (left right : List Frame) : List Frame :=
  joinRows (l.graph.kind [] j)
    (fun frame => isTrue ((join s l.declared none j).on.value db params (.of (frame ++ outer))))
    (l.frame (l.graph.absence needed depth j)) left right

/-- The rows of a scope's table joined to the tables below it, each of these only after the tables
below it were joined to it: `A LEFT JOIN (B INNER JOIN C)`. -/
def declaredRows (db : Database) (params : List Value) (s : Schema) (l : Layout) (needed : List Nat)
    (outer : Frame) : Nat → Nat → List Frame
  | 0, scope => labelled (l.label scope) (db.table (tableOf (l.graph.entity s scope)))
  | depth + 1, scope =>
    (l.graph.branches needed scope).foldl (fun left j =>
      declaredJoin db params s l needed outer depth j left
        (declaredRows db params s l needed outer depth (j + 1)))
      (labelled (l.label scope) (db.table (tableOf (l.graph.entity s scope))))

/-! ### Joins as they are declared -/

theorem declaredJoin_eq_flatMap (db : Database) (params : List Value) (needed : List Nat)
    (outer : Frame) (depth j : Nat) (left right : List Frame) :
    declaredJoin db params s l needed outer depth j left right =
      left.flatMap fun row => declaredJoin db params s l needed outer depth j [row] right :=
  Sql.joinRows_eq_flatMap ..

section Declared
variable (hl : Laid l a) (hkeys : ∀ j < l.graph.joins.length, (navigationOf l.graph j).keys ≠ [])
  {needed : List Nat} (hclosed : l.graph.Closed needed)
  (db : Database) (params : List Value) (outer : Frame)
include hl hkeys

omit hkeys in
theorem Laid.declared : Laid l.declared a :=
  ⟨hl.rooted, hl.names, fun _ h => absurd h List.not_mem_nil⟩

/-- What a declared join puts together with a row that has a row of its parent. -/
theorem Laid.declaredJoin_row {depth c : Nat} {r : Row} {f : JoinedRow Row}
    (hf : Open l (l.graph.parent c) (some r) (c :: l.graph.descend needed depth (c + 1)) f) :
    declaredJoin db params s l needed outer depth c [l.frame f]
        (((tables db s l).rows c).flatMap fun t =>
          (l.graph.expand needed (tables db s l) [] depth (c + 1) t).map fun x =>
            l.frame ((c + 1, some t) :: x)) =
      (l.graph.branchRows needed (tables db s l) [] depth c r).map fun x => l.frame (f ++ x) := by
  have hon : ∀ t, ∀ x ∈ l.graph.expand needed (tables db s l) [] depth (c + 1) t,
      isTrue ((join s l.declared none c).on.value db params
        (.of (l.frame f ++ l.frame ((c + 1, some t) :: x) ++ outer))) =
          l.graph.meets (tables db s l) [] c r t := by
    intro t x hx
    refine hl.declared.isTrue_on_next hkeys db params outer
      ⟨hf.bounded, hf.here, hf.row, hf.inside, hf.new⟩ fun k hk => ?_
    rw [JoinGraph.keys_expand hx] at hk
    obtain ⟨j, hj, rfl⟩ := List.mem_map.1 hk
    exact (hl.rooted.mem_descend hj).2.1
  have hfinds : (((tables db s l).rows c).flatMap fun t =>
      (l.graph.expand needed (tables db s l) [] depth (c + 1) t).map fun x =>
        l.frame ((c + 1, some t) :: x)).filter (fun other =>
          isTrue ((join s l.declared none c).on.value db params
            (.of (l.frame f ++ other ++ outer)))) =
      (l.graph.finds (tables db s l) []
        (l.graph.expand needed (tables db s l) [] depth (c + 1)) c r).map l.frame := by
    rw [List.filter_flatMap, JoinGraph.finds, List.map_flatMap]
    refine List.flatMap_congr fun t _ => ?_
    by_cases hmeets : l.graph.meets (tables db s l) [] c r t = true
    · rw [if_pos hmeets, List.map_map, List.filter_eq_self.2]
      · rfl
      · intro other hother
        obtain ⟨x, hx, rfl⟩ := List.mem_map.1 hother
        rw [hon t x hx, hmeets]
    · rw [if_neg hmeets, List.map_nil, List.filter_eq_nil_iff]
      intro other hother
      obtain ⟨x, hx, rfl⟩ := List.mem_map.1 hother
      rwa [hon t x hx]
  rw [declaredJoin, joinRows, List.flatMap_singleton, hfinds, ← Sql.map_orAbsent, List.map_map]
  exact congrArg (List.map · _) (funext fun x => (l.frame_append f x).symm)

include hclosed

/-- **What joining the tables as they are declared makes of them.** -/
theorem Laid.declaredRows_eq {depth scope : Nat} (hscope : scope ≤ l.graph.joins.length) :
    declaredRows db params s l needed outer depth scope =
      (db.table (tableOf (l.graph.entity s scope))).flatMap fun r =>
        (l.graph.expand needed (tables db s l) [] depth scope r).map fun x =>
          l.frame ((scope, some r) :: x) := by
  induction depth generalizing scope with
  | zero => simp [declaredRows, JoinGraph.expand, labelled, Layout.frame, List.map_eq_flatMap]
  | succ depth ih =>
    have hlinear := fun left c => declaredJoin_eq_flatMap (s := s) (l := l) db params needed outer
      depth c left (declaredRows db params s l needed outer depth (c + 1))
    rw [declaredRows, foldl_eq_flatMap hlinear, labelled, List.flatMap_map]
    congr 1
    funext r
    refine foldl_branches _
      (fun c => l.graph.branchRows needed (tables db s l) [] depth c r) hlinear
      (fun c _ x hx => JoinGraph.keys_branchRows hx) (fun c hc f hf => ?_)
      (hl.rooted.nodup_descend hclosed (depth + 1) scope) (hl.open_row needed (depth + 1) hscope r)
    obtain ⟨⟨hlen, rfl⟩, -⟩ := JoinGraph.mem_branches.1 hc
    show declaredJoin db params s l needed outer depth c [l.frame f] _ = _
    rw [ih hlen]
    exact hl.declaredJoin_row hkeys db params outer hf

end Declared

/-! ### Selects -/

/-- What joined rows keep of how the required joins are declared. -/
structure Nests (db : Database) (params : List Value) (s : Schema) (l : Layout) (needed : List Nat)
    (outer : Frame) (joined : List Frame) : Prop where
  /-- Where the parent of a nested join has a row, the row has a match in the join's table. -/
  matched : ∀ frame ∈ joined, ∀ j ∈ needed, l.graph.isNested [] j = true →
    ∀ p, l.rowOf frame (l.graph.parent j) = some p →
      ∃ t ∈ (tables db s l).rows j, (tables db s l).connects j p t = true
  /-- The join has found one exactly when some match has one for each nested join below it. -/
  found : ∀ frame ∈ joined, ∀ j ∈ needed, l.graph.isNested [] j = true →
    ∀ p, l.rowOf frame (l.graph.parent j) = some p →
      ((l.rowOf frame (j + 1)).isSome = true ↔
        ∃ t ∈ (tables db s l).rows j, (tables db s l).connects j p t = true ∧
          ∀ child ∈ needed, l.graph.parent child = j + 1 → l.graph.isNested [] child = true →
            ∃ u ∈ (tables db s l).rows child, (tables db s l).connects child t u = true)
  /-- The rows are those of the joins as they are declared exactly when each nested join has found
  one wherever its parent has a row. -/
  equal : joined = declaredRows db params s l needed outer l.graph.joins.length 0 ↔
    ∀ frame ∈ joined, ∀ j ∈ needed, l.graph.isNested [] j = true →
      (l.rowOf frame (l.graph.parent j)).isSome = true → (l.rowOf frame (j + 1)).isSome = true

section Selects
variable (hl : Laid l a) (hkeys : ∀ j < l.graph.joins.length, (navigationOf l.graph j).keys ≠ [])
  {scopes : List Nat} (hflipped : l.flipped = l.graph.flipNested [] (l.graph.joinsTo scopes))
  {select : Select} (hsource : select.source = rootTable s l)
  (hjoins : select.joins = (l.graph.joinsTo scopes).map (join s l none))
  (db : Database) (params : List Value) (outer : Frame)
include hl hkeys hflipped hsource hjoins

/-- The joined rows of a select are what the tree of its tables has for the rows of the root. -/
theorem Laid.joined_eq : select.joined db params outer =
    (db.table (tableOf (l.graph.entity s 0))).flatMap fun r =>
      (l.graph.expand (l.graph.joinsTo scopes) (tables db s l) l.flipped l.graph.joins.length 0
        r).map fun x => l.frame ((0, some r) :: x) := by
  have hroot : labelled select.source.label (select.source.rows db params outer) =
      (db.table (tableOf (l.graph.entity s 0))).map fun r => l.frame [(0, some r)] := by
    rw [hsource]
    rfl
  rw [Select.joined, hroot, hjoins, Sql.allRows_eq_flatMap, List.flatMap_map]
  congr 1
  funext r
  have hmade := hl.allRows_expand (s := s) hkeys (hl.rooted.closed_joinsTo scopes) hflipped db
    params outer (hl.open_row (l.graph.joinsTo scopes) l.graph.joins.length (Nat.zero_le _) r)
  rwa [← hl.rooted.joinsTo_eq_descend] at hmade

omit hkeys hflipped hsource hjoins in
/-- What the scopes of a joined row have. -/
theorem Laid.rowOf_joined {needed flipped : List Nat} {r : Row} {x : JoinedRow Row}
    (hx : x ∈ l.graph.expand needed (tables db s l) flipped l.graph.joins.length 0 r) {k : Nat}
    (hk : k ≤ l.graph.joins.length) :
    l.rowOf (l.frame ((0, some r) :: x)) k = rowAt ((0, some r) :: x) k := by
  refine hl.rowOf_frame (fun i hi => ?_) hk
  rw [List.map_cons, List.mem_cons, JoinGraph.keys_expand hx] at hi
  rcases hi with rfl | hi
  · exact Nat.zero_le _
  · obtain ⟨j, hj, rfl⟩ := List.mem_map.1 hi
    exact (hl.rooted.mem_descend hj).2.1

omit hkeys hflipped hsource hjoins in
theorem Laid.scopes_joinsTo {j : Nat} (hj : j ∈ l.graph.joinsTo scopes) :
    j + 1 ≤ l.graph.joins.length ∧ l.graph.parent j ≤ l.graph.joins.length := by
  rw [hl.rooted.joinsTo_eq_descend] at hj
  have hlen := (hl.rooted.mem_descend hj).2.1
  exact ⟨hlen, Nat.le_trans (hl.rooted j) (Nat.le_of_lt hlen)⟩

/-- A nested join of a joined row finds a match that its ON condition is true of, if there is
one. -/
theorem Laid.joined_found {frame : Frame} (hframe : frame ∈ select.joined db params outer) {j : Nat}
    (hj : j ∈ l.graph.joinsTo scopes) (hnested : l.graph.isNested [] j = true) {p : Row}
    (hp : l.rowOf frame (l.graph.parent j) = some p) :
    (∃ t ∈ (tables db s l).rows j, (tables db s l).connects j p t = true) ∧
      ((l.rowOf frame (j + 1)).isSome = true ↔
        ∃ t ∈ (tables db s l).rows j, l.graph.meets (tables db s l) l.flipped j p t = true) := by
  rw [hl.joined_eq hkeys hflipped hsource hjoins db params outer] at hframe
  obtain ⟨r, -, hmem⟩ := List.mem_flatMap.1 hframe
  obtain ⟨x, hx, rfl⟩ := List.mem_map.1 hmem
  rw [hl.rowOf_joined db hx (hl.scopes_joinsTo hj).2] at hp
  rw [hl.rowOf_joined db hx (hl.scopes_joinsTo hj).1]
  rw [hflipped] at hx ⊢
  rw [hl.rooted.joinsTo_eq_descend] at hj
  exact hl.rooted.nested_found (hl.rooted.closed_joinsTo scopes) hx hj hnested hp

/-- The joined rows are those of the joins as they are declared exactly when no nested join is
empty below a row. -/
theorem Laid.joined_eq_declared : select.joined db params outer =
      declaredRows db params s l (l.graph.joinsTo scopes) outer l.graph.joins.length 0 ↔
    ∀ frame ∈ select.joined db params outer, ∀ j ∈ l.graph.joinsTo scopes,
      l.graph.isNested [] j = true → (l.rowOf frame (l.graph.parent j)).isSome = true →
        (l.rowOf frame (j + 1)).isSome = true := by
  have hclosed := hl.rooted.closed_joinsTo scopes
  have hdescend := hl.rooted.joinsTo_eq_descend scopes
  have hjoined := hl.joined_eq hkeys hflipped hsource hjoins db params outer
  have hdeclared : declaredRows db params s l (l.graph.joinsTo scopes) outer
      l.graph.joins.length 0 = _ :=
    hl.declaredRows_eq hkeys hclosed db params outer (Nat.zero_le _)
  constructor
  · intro hequal frame hframe j hj hnested habove
    rw [hequal, hdeclared] at hframe
    obtain ⟨r, -, hmem⟩ := List.mem_flatMap.1 hframe
    obtain ⟨x, hx, rfl⟩ := List.mem_map.1 hmem
    rw [hl.rowOf_joined db hx (hl.scopes_joinsTo hj).2] at habove
    rw [hl.rowOf_joined db hx (hl.scopes_joinsTo hj).1]
    exact hl.rooted.whole_declared hclosed hx j (hdescend ▸ hj) hnested habove
  · intro hwhole
    rw [hjoined, hdeclared]
    refine List.flatMap_congr fun r hr => ?_
    rw [hflipped, hl.rooted.expand_flipped hclosed (Nat.le_add_left ..) fun x hx j hj hnested => ?_]
    rw [← hdescend] at hj
    have hmem : l.frame ((0, some r) :: x) ∈ select.joined db params outer := by
      rw [hjoined, hflipped]
      exact List.mem_flatMap.2 ⟨r, hr, List.mem_map_of_mem hx⟩
    rw [← hl.rowOf_joined db hx (hl.scopes_joinsTo hj).2,
      ← hl.rowOf_joined db hx (hl.scopes_joinsTo hj).1]
    exact hwhole _ hmem j hj hnested

/-- What the joined rows of a select keep of how its joins are declared. -/
theorem Laid.nests :
    Nests db params s l (l.graph.joinsTo scopes) outer (select.joined db params outer) where
  matched _ hframe _ hj hnested _ hp :=
    (hl.joined_found hkeys hflipped hsource hjoins db params outer hframe hj hnested hp).1
  found _ hframe _ hj hnested _ hp := by
    rw [(hl.joined_found hkeys hflipped hsource hjoins db params outer hframe hj hnested hp).2,
      hflipped]
    exact exists_congr fun t => and_congr_right fun _ => hl.rooted.meets_flipNested
  equal := hl.joined_eq_declared hkeys hflipped hsource hjoins db params outer

end Selects

section
variable {db : Database} {params : List Value} {outer : Frame}

/-- A nested join with no nested join right below it finds one wherever its parent has a row. -/
theorem Nests.found_innermost {needed : List Nat} {joined : List Frame}
    (h : Nests db params s l needed outer joined) {frame : Frame} (hframe : frame ∈ joined)
    {j : Nat} (hj : j ∈ needed) (hnested : l.graph.isNested [] j = true)
    (hlast : ∀ child ∈ needed, l.graph.parent child = j + 1 → l.graph.isNested [] child = false)
    {p : Row} (hp : l.rowOf frame (l.graph.parent j) = some p) :
    (l.rowOf frame (j + 1)).isSome = true := by
  obtain ⟨t, ht, hconnects⟩ := h.matched frame hframe j hj hnested p hp
  refine (h.found frame hframe j hj hnested p hp).2 ⟨t, ht, hconnects, fun child hmem hparent => ?_⟩
  simp [hlast child hmem hparent]

/-- Where no nested join hangs right off another, joins are made as they are declared. -/
theorem Nests.equal_of_shallow {needed : List Nat} {joined : List Frame}
    (h : Nests db params s l needed outer joined)
    (hshallow : ∀ j ∈ needed, l.graph.isNested [] j = true → ∀ child ∈ needed,
      l.graph.parent child = j + 1 → l.graph.isNested [] child = false) :
    joined = declaredRows db params s l needed outer l.graph.joins.length 0 := by
  refine h.equal.2 fun frame hframe j hj hnested habove => ?_
  obtain ⟨p, hp⟩ := Option.isSome_iff_exists.1 habove
  exact h.found_innermost hframe hj hnested (hshallow j hj hnested) hp

end

/-! ### Queries -/

/-- What is joined has keys. -/
theorem keys_navigationOf {d : Schema.Draft} (hs : Schema.Built d s) {g : JoinGraph}
    (hg : g.Follows s) {j : Nat} (hj : j < g.joins.length) : (navigationOf g j).keys ≠ [] := by
  obtain ⟨id, hmem⟩ := hg g.joins[j] (List.getElem_mem hj)
  have hget : navigationOf g j = g.joins[j].navigation := by simp [navigationOf, hj]
  exact hget ▸ hs.keyed hmem

/-- A select under a filter joins its tables with the nested joins among them flipped. -/
theorem filtered_nests {d : Schema.Draft} (hs : Schema.Built d s) {g : JoinGraph} (hg : g.Rooted)
    (hfollows : g.Follows s) {columns : List Column} {f : Filter}
    {compile : Layout → Compile (Option Sql.Expr)} {select : Select} {n n' : Numbering}
    (h : filtered s g columns f compile n = .ok ((l, select), n')) :
    ∃ needed, select.source = rootTable s l ∧ select.joins = needed.map (join s l none) ∧
      ∀ db params outer, Nests db params s l needed outer (select.joined db params outer) := by
  obtain ⟨grown, conditions, filter, hconditions, hlaid, -, hselect⟩ := filtered_ok h
  have hrooted := (resolveConditions_found hs.acyclic hg hconditions).rooted
  have hfollows : grown.Follows s := Member.follows_resolveEach hfollows hconditions
  have hl : Laid l n.aliases := hlaid ▸ laid_laidOut hrooted (columns ++ conditions) n.aliases
  obtain rfl : l.graph = grown := by rw [hlaid]; rfl
  have hsource : select.source = rootTable s l := by rw [hselect]; rfl
  have hjoins : select.joins =
      (l.graph.joinsTo (scopesOf (columns ++ conditions))).map (join s l none) := by rw [hselect]
  have hflipped : l.flipped =
      l.graph.flipNested [] (l.graph.joinsTo (scopesOf (columns ++ conditions))) :=
    congrArg Layout.flipped hlaid
  exact ⟨_, hsource, hjoins, hl.nests (fun j hj => keys_navigationOf hs hfollows hj) hflipped
    hsource hjoins⟩

/-- **What the rows of a query keep** of how its joins are declared, whatever the tables hold. A
nested join whose parent has a row has a match there. It finds one exactly when some match has one
in turn for each nested join right below, and when all do the rows are those of the joins as they
are declared. -/
theorem joined_nests {documents : List (String × Mapping.Document)}
    (hs : Schema.build documents = .ok s) {q : Query} (hq : q.grouping = none)
    {plan : CompiledQuery} (h : Plan.select s q = .ok plan) :
    ∃ needed, plan.select.source = rootTable s plan.layout ∧
      plan.select.joins = needed.map (join s plan.layout none) ∧
      ∀ db params outer,
        Nests db params s plan.layout needed outer (plan.select.joined db params outer) := by
  obtain ⟨d, hbuilt⟩ := Schema.build_ok hs
  obtain ⟨n, hrun, -⟩ := select_ok h
  obtain ⟨e, g, display, grown, sorted, -, hdisplay, hsorted, hcases⟩ := querySelects_ok hrun
  obtain ⟨inner, -, hfiltered, hshown, -⟩ | ⟨grouping, -, hgrouping, -⟩ := hcases
  · have hg := Member.resolveEach_found hbuilt.acyclic (JoinGraph.rooted_ofRoot e.id) hdisplay
    have hgrown := resolveSorting_found hbuilt.acyclic hg.rooted hsorted
    have hfollows := Member.follows_resolveEach
      (Member.follows_resolveEach (Member.follows_ofRoot s e.id) hdisplay)
      (resolveSorting_ok hsorted)
    obtain ⟨needed, hsource, hjoins, hnests⟩ :=
      filtered_nests hbuilt hgrown.rooted hfollows hfiltered
    rw [hshown]
    exact ⟨needed, hsource, hjoins, hnests⟩
  · exact absurd (hq.symm.trans hgrouping) (by simp)

/-- A customer's order. The customer has a country, and the country names a region that there is
not. -/
def lostRegion : Database where
  table name :=
    if name.name = "orders" then [[("Id", .int32 1), ("CustomerId", .int32 7)]]
    else if name.name = "Customer" then [[("Id", .int32 7), ("CountryId", .int32 3)]]
    else if name.name = "Country" then [[("Id", .int32 3), ("RegionId", .int32 9)]]
    else []
  operator op v w :=
    if op = .eq ∧ v.isNull = false ∧ w.isNull = false then .bool (v == w) else .null
  isAggregate _ := false
  function _ _ := .null
  aggregate _ _ := .null
  precedes _ _ := true
  equal_comm v w := by simp [and_comm, Bool.beq_comm]
  equal_null v := by simp

/-- Orders with their customers' regions, through the customers' countries. -/
def regionOfOrder : Query where
  entity := "Order"
  filter := .composite .and []
  members := ["Id", "Customer.Country.Region.Name"]
  sorting := []
  grouping := none
  paging := none

/-- Orders with their customers' countries. -/
def countryOfOrder : Query := {regionOfOrder with members := ["Id", "Customer.Country.Name"]}

/-- Below a customer's country the second query needs nothing, and so its rows are those of the
joins as they are declared, whatever the tables hold. -/
theorem joined_nests_regionOfOrder :
    (∃ plan, Plan.select salesSchema regionOfOrder = .ok plan ∧
      ∃ needed, plan.select.joins = needed.map (join salesSchema plan.layout none) ∧
        Nests lostRegion plan.params salesSchema plan.layout needed []
          (plan.select.joined lostRegion plan.params [])) ∧
    ∃ plan, Plan.select salesSchema countryOfOrder = .ok plan ∧
      plan.layout.graph.isNested [] 1 = true ∧
      ∃ needed, plan.select.joins = needed.map (join salesSchema plan.layout none) ∧
        ∀ db params outer, plan.select.joined db params outer =
          declaredRows db params salesSchema plan.layout needed outer
            plan.layout.graph.joins.length 0 := by
  constructor
  · obtain ⟨plan, hplan, -⟩ := Except.exists_ok (x := Plan.select salesSchema regionOfOrder)
      (fun _ => true) (by decide +kernel)
    obtain ⟨needed, -, hjoins, hnests⟩ := joined_nests salesSchema_builds rfl hplan
    exact ⟨plan, hplan, needed, hjoins, hnests lostRegion plan.params []⟩
  · obtain ⟨plan, hplan, h⟩ := Except.exists_ok (x := Plan.select salesSchema countryOfOrder)
      (fun plan => decide (plan.layout.graph.isNested [] 1 = true ∧
        plan.layout.graph.isNested [] 0 = false ∧
        plan.layout.graph.joins.map (·.parent) = [0, 1])) (by decide +kernel)
    obtain ⟨hcountry, hcustomer, hparents⟩ := of_decide_eq_true h
    obtain ⟨needed, -, hjoins, hnests⟩ := joined_nests salesSchema_builds rfl hplan
    -- The country hangs off the customer, which is not nested, and nothing off the country.
    have hlast : ∀ child, plan.layout.graph.parent child ≤ 1 := fun child => by
      rw [JoinGraph.parent, ← List.getElem?_map, hparents]
      rcases child with _ | _ | child <;> simp
    refine ⟨plan, hplan, hcountry, needed, hjoins, fun db params outer =>
      (hnests db params outer).equal_of_shallow fun j _ hnested child _ hparent => ?_⟩
    obtain rfl : j = 0 := by
      have hle := hlast child
      omega
    exact absurd (hnested.symm.trans hcustomer) (by simp)

/-- The order comes with its customer but without the customer's country, which would need its
region. Joined as declared it comes without the customer. -/
theorem regionOfOrder_unnested : ∃ plan, Plan.select salesSchema regionOfOrder = .ok plan ∧
    plan.select.joins = [0, 1, 2].map (join salesSchema plan.layout none) ∧
    plan.layout.graph.isNested [] 1 = true ∧
    (∃ frame ∈ plan.select.joined lostRegion plan.params [],
      (plan.layout.rowOf frame (plan.layout.graph.parent 1)).isSome = true ∧
        plan.layout.rowOf frame 2 = none) ∧
    plan.select.joined lostRegion plan.params [] ≠
      declaredRows lostRegion plan.params salesSchema plan.layout [0, 1, 2] []
        plan.layout.graph.joins.length 0 := by
  obtain ⟨plan, hplan, hjoins⟩ : ∃ plan, Plan.select salesSchema regionOfOrder = .ok plan ∧
      plan.select.joins = [0, 1, 2].map (join salesSchema plan.layout none) := ⟨_, rfl, rfl⟩
  obtain ⟨found, hfound, h⟩ := Except.exists_ok (x := Plan.select salesSchema regionOfOrder)
    (fun plan => decide (plan.layout.graph.isNested [] 1 = true ∧
      (∃ frame ∈ plan.select.joined lostRegion plan.params [],
        (plan.layout.rowOf frame (plan.layout.graph.parent 1)).isSome = true ∧
          plan.layout.rowOf frame 2 = none) ∧
      plan.select.joined lostRegion plan.params [] ≠
        declaredRows lostRegion plan.params salesSchema plan.layout [0, 1, 2] []
          plan.layout.graph.joins.length 0)) (by decide +kernel)
  obtain rfl := Except.ok.inj (hplan.symm.trans hfound)
  exact ⟨plan, hplan, hjoins, of_decide_eq_true h⟩

end EntityQuery.Plan
