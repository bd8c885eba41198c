import EntityQuery.Proofs.Plan.Moved
import EntityQuery.Proofs.Plan.Reached
import EntityQuery.Sql.Binding
import EntityQuery.Sql.Render

/-! Values have no influence on statements.

Two requests that differ in values only compile to the same statements, as long as the values are
null in the same places and patterns in the same places: whatever else a value is, it goes into the
list of parameters and nowhere else. The values of the two lists belong together place by place
(`values_without_influence`). -/
namespace EntityQuery.Plan

open Member (Column)
open Sql (Expr Select Renaming)

/-! ### Requests -/

/-- What can be compiled. -/
inductive Request where
  | query (q : Query)
  | page (q : Query) (p : Paging)
  | count (entity : String) (f : Filter) (includes : List String)
  | existence (entity : String) (f : Filter)
  | insert (e : Entity) (row : Row) (includes : List String)
  | update (e : Entity) (row : OrderedMap Write) (f : Filter) (members : List String)
  | delete (e : Entity) (f : Filter)

/-- The statements of a request, which share their parameters. A query has its count with it, and
an update that assigns nothing has no statement. -/
def Request.compile (s : Schema) : Request → Except Error (List Sql.Statement × List Value)
  | .query q =>
    (select s q).map fun plan => ([.select plan.select, .select plan.count], plan.params)
  | .page q p => (select s q).map fun plan => ([.select (plan.page p).select], plan.params)
  | .count entity f includes =>
    (Plan.count s entity f includes).map fun (select, params) => ([.select select], params)
  | .existence entity f =>
    (Plan.existence s entity f).map fun (select, params) => ([.select select], params)
  | .insert e row includes => (Plan.insert e row includes).map fun w => ([w.statement], w.params)
  | .update e row f members => (Plan.update s e row f members).map fun w =>
    match w with
    | none => ([], [])
    | some w => ([w.statement], w.params)
  | .delete e f => (Plan.delete s e f).map fun w => ([w.statement], w.params)

/-- Requests that are the same but for their values. -/
inductive Request.Alike (R : Value → Value → Prop) : Request → Request → Prop where
  | query {q r : Query} : q.Alike R r → Request.Alike R (.query q) (.query r)
  | page {q r : Query} {p : Paging} : q.Alike R r → Request.Alike R (.page q p) (.page r p)
  | count {entity : String} {f g : Filter} {includes : List String} : f.Alike R g →
    Request.Alike R (.count entity f includes) (.count entity g includes)
  | existence {entity : String} {f g : Filter} : f.Alike R g →
    Request.Alike R (.existence entity f) (.existence entity g)
  | insert {e : Entity} {row row' : Row} {includes : List String} : row.Alike R row' →
    Request.Alike R (.insert e row includes) (.insert e row' includes)
  | update {e : Entity} {row row' : OrderedMap Write} {f g : Filter} {members : List String} :
    row.WritesAlike R row' → f.Alike R g →
    Request.Alike R (.update e row f members) (.update e row' g members)
  | delete {e : Entity} {f g : Filter} : f.Alike R g → Request.Alike R (.delete e f) (.delete e g)

variable {s : Schema} {R : Value → Value → Prop}

/-- Statements that are the same for values that belong together, and so is what a database is
sent. -/
structure SameStatements (R : Value → Value → Prop) (a b : List Sql.Statement × List Value) :
    Prop where
  statements : b.1 = a.1
  params : List.Forall₂ R a.2 b.2
  text : ∀ (d : Sql.Dialect), ∀ statement ∈ a.1,
    (d.bind (statement.text d) b.2).map Prod.fst = (d.bind (statement.text d) a.2).map Prod.fst

/-- Binding asks of parameters only how many there are. -/
theorem bind_text (d : Sql.Dialect) (sql : String) {params params' : List Value}
    (h : params.length = params'.length) :
    (d.bind sql params').map Prod.fst = (d.bind sql params).map Prod.fst := by
  unfold Sql.Dialect.bind
  rw [h]
  cases (Sql.scan sql.toList).mapM (Sql.Span.resolve params'.length) <;> rfl

theorem sameStatements {statements : List Sql.Statement} {params params' : List Value}
    (h : List.Forall₂ R params params') :
    SameStatements R (statements, params) (statements, params') :=
  ⟨rfl, h, fun d _ _ => bind_text d _ h.length_eq⟩

/-- Writes with the same statement. -/
def SameWrite (R : Value → Value → Prop) (a b : CompiledWrite) : Prop :=
  b.statement = a.statement ∧ List.Forall₂ R a.params b.params

/-! ### Steps -/

/-- Two compilations that return the same, whatever values they bind. -/
abbrev Uninfluenced (R : Value → Value → Prop) {α : Type} (x y : Compile α) : Prop :=
  Parallel .same R (fun a b => b = a) x y

theorem Layout.renamed_self (l : Layout) : l.Renamed .same l :=
  ⟨rfl, fun scope => by cases l.label scope <;> simp⟩

theorem assign_uninfluenced (g : JoinGraph) : Uninfluenced R (assign g) (assign g) := by
  intro n n' hn
  have htables : n.aliases.tables = n'.aliases.tables := Option.some.inj (hn.tables 0)
  have hjoins : n.aliases.joins = n'.aliases.joins := hn.joins 0
  refine .ok ⟨?_, ⟨1, rfl, rfl⟩, ⟨g.joins.length, rfl, rfl⟩, [], [], .nil, by simp, by simp⟩
  simp [htables, hjoins]

theorem freshTable_uninfluenced : Uninfluenced R freshTable freshTable :=
  freshTable_parallel.mono fun a _ ⟨hname, _, _⟩ =>
    (Option.some.inj ((Renaming.same_name a).symm.trans hname)).symm

theorem run_alike {α β : Type} {A : α → β → Prop} {x : Compile α} {y : Compile β}
    (h : Parallel .same R A x y) : Except.Alike
      (fun a b => A a.1 b.1 ∧ List.Forall₂ R a.2.params b.2.params) (x.run {}) (y.run {}) :=
  (h {} {} ⟨fun _ => rfl, fun _ => rfl, fun _ => rfl⟩).mono fun a b ⟨hab, hadvance⟩ => by
    obtain ⟨-, -, vs, ws, hvs, ha, hb⟩ := hadvance
    exact ⟨hab, by rw [ha, hb]; exact hvs⟩

/-! ### Selects -/

theorem orderBy_eq_map (l : Layout) (sorted : List (Column × Direction)) :
    orderBy l sorted = sorted.map fun p => ⟨l.expr p.1, p.2⟩ := rfl

theorem resolveGrouped_alike {f g : Filter} {members : List String} {having having' : Filter}
    (h : f.Alike R g) (hhaving : having.Alike R having') (graph : JoinGraph)
    (display sorted : List Column) :
    resolveGrouped s graph g ⟨members, having'⟩ display sorted =
      resolveGrouped s graph f ⟨members, having⟩ display sorted := by
  unfold resolveGrouped resolveConditions
  rw [h.members, hhaving.members]

theorem checkConditions_eq {e : Entity} {g : JoinGraph} {cs ds : List Condition}
    (h : cs.map (·.member) = ds.map (·.member)) :
    checkConditions s e g cs = checkConditions s e g ds := by
  induction cs generalizing ds g with
  | nil => rw [List.map_eq_nil_iff.1 h.symm]
  | cons c rest ih =>
    obtain ⟨d, ds, rfl, hd, hrest⟩ := List.map_eq_cons_iff.1 h.symm
    simp only [checkConditions, hd, ih hrest.symm]

section
variable (hR : ∀ v w, R v w → v.SameKind w)
include hR

theorem filterExpr_uninfluenced {f g : Filter} (h : f.Alike R g) (l : Layout) :
    Uninfluenced R (filterExpr s f l) (filterExpr s g l) :=
  (filterExpr_parallel hR h l.renamed_self).mono fun e e' he => by
    rw [he, Sql.Expr.renamed?_same]

/-- The layout of a select may only be asked for the columns in it. -/
theorem filtered_uninfluenced {f g : Filter} (h : f.Alike R g) (graph : JoinGraph)
    (columns : List Column) :
    Parallel .same R (fun a b => (b.1.expr = a.1.expr ∧ b.1.item = a.1.item) ∧ b.2 = a.2)
      (filtered s graph columns f (filterExpr s f))
      (filtered s graph columns g (filterExpr s g)) := by
  refine (filtered_parallel h.members (fun l l' hl => filterExpr_parallel hR h hl.toRenamed) graph
    columns).mono fun a b hab => ⟨⟨funext fun c => ?_, funext fun c => ?_⟩, ?_⟩
  · rw [← hab.layout.expr, Sql.Expr.renamed_same]
  · rw [← hab.layout.item, Sql.Item.renamed_same]
  · rw [hab.select, Sql.Select.renamed_same]

theorem groupedSelects_uninfluenced {f g : Filter} {members : List String} {having having' : Filter}
    (h : f.Alike R g) (hhaving : having.Alike R having') (c : GroupedColumns)
    (sorted : List (Column × Direction)) :
    Uninfluenced R (groupedSelects s c f ⟨members, having⟩ sorted)
      (groupedSelects s c g ⟨members, having'⟩ sorted) := by
  unfold groupedSelects
  refine (assign_uninfluenced c.graph).bind_of_eq fun names => ?_
  refine (filterExpr_uninfluenced hR h _).bind_of_eq fun filter => ?_
  refine (filterExpr_uninfluenced hR hhaving _).bind_of_eq fun tested => ?_
  refine freshTable_uninfluenced.bind_of_eq fun derived => ?_
  exact .pure rfl

theorem querySelects_uninfluenced {q r : Query} (h : q.Alike R r) :
    Parallel .same R (fun a b => b.2 = a.2) (querySelects s q) (querySelects s r) := by
  obtain ⟨hf, hgrouping⟩ := h
  unfold querySelects
  refine (Parallel.same _).bind_of_eq fun e => ?_
  refine (Parallel.same _).bind_of_eq ?_
  rintro ⟨g, display⟩
  refine (Parallel.same _).bind_of_eq ?_
  rintro ⟨g, sorted⟩
  cases hgrouping with
  | none =>
    refine (filtered_uninfluenced hR hf _ _).bind ?_
    rintro ⟨l, _⟩ ⟨l', select⟩ ⟨⟨hexpr, hitem⟩, rfl⟩
    refine .pure ?_
    simp only at hexpr hitem ⊢
    rw [hitem, orderBy_eq_map, orderBy_eq_map, hexpr]
  | some hhaving =>
    simp only [resolveGrouped_alike hf hhaving]
    refine (Parallel.same _).bind_of_eq fun columns => ?_
    exact (groupedSelects_uninfluenced hR hf hhaving columns sorted).mono fun a b hab => by rw [hab]

theorem countSelect_uninfluenced {f g : Filter} (h : f.Alike R g) (entity : String)
    (includes : List String) :
    Uninfluenced R (countSelect s entity f includes) (countSelect s entity g includes) := by
  unfold countSelect
  refine (Parallel.same _).bind_of_eq fun e => ?_
  refine (Parallel.same _).bind_of_eq ?_
  rintro ⟨graph, included⟩
  refine (filtered_uninfluenced hR h graph included).bind ?_
  rintro ⟨l, _⟩ ⟨l', select⟩ ⟨⟨hexpr, -⟩, rfl⟩
  refine .pure ?_
  simp only at hexpr ⊢
  rw [hexpr]

theorem existsSelect_uninfluenced {f g : Filter} (h : f.Alike R g) (entity : String) :
    Uninfluenced R (existsSelect s entity f) (existsSelect s entity g) := by
  unfold existsSelect
  refine (Parallel.same _).bind_of_eq fun e => ?_
  refine (filtered_uninfluenced hR h _ []).bind ?_
  rintro ⟨l, _⟩ ⟨l', select⟩ ⟨-, rfl⟩
  exact .pure rfl

/-! ### Writes -/

theorem writeFilterExpr_uninfluenced {e : Entity} {f g : Filter} (h : f.Alike R g) :
    Uninfluenced R (writeFilterExpr s e f) (writeFilterExpr s e g) := by
  unfold writeFilterExpr
  rw [checkConditions_eq h.members]
  refine (Parallel.same _).bind_of_eq fun _ => ?_
  exact filterExpr_uninfluenced hR h _

theorem updateStatement_uninfluenced {e : Entity} {row row' : OrderedMap Write} {f g : Filter}
    (hrow : row.WritesAlike R row') (h : f.Alike R g) (members : List String) :
    Uninfluenced R (updateStatement s e row f members) (updateStatement s e row' g members) := by
  have hempty : f.isEmpty = g.isEmpty := by
    rw [Bool.eq_iff_iff, f.isEmpty_iff, g.isEmpty_iff, ← List.map_eq_nil_iff, h.members,
      List.map_eq_nil_iff]
  have hassigned : ∀ filter, Uninfluenced R
      (do return (⟨tableOf e, ← assignmentsOf e row g.isEmpty members, filter⟩ : Sql.Update))
      (do return ⟨tableOf e, ← assignmentsOf e row' g.isEmpty members, filter⟩) := fun filter => by
    refine (assignmentsOf_parallel (fun _ => rfl) hR hrow _ members).bind_of_eq fun as => ?_
    exact .pure rfl
  unfold updateStatement
  rw [hempty]
  revert hassigned
  cases g.isEmpty with
  | true =>
    exact fun hassigned =>
      (keysExpr_parallel (fun _ => rfl) hR hrow).bind_of_eq fun filter => hassigned filter
  | false =>
    exact fun hassigned =>
      (writeFilterExpr_uninfluenced hR h).bind_of_eq fun filter => hassigned filter

theorem insertColumns_alike {e : Entity} {includes : List String} {row row' : Row}
    (h : row.Alike R row') :
    Except.Alike (List.Forall₂ fun a b => a.1 = b.1 ∧ R a.2 b.2) (insertColumns e includes row)
      (insertColumns e includes row') := by
  induction h with
  | nil => exact .ok .nil
  | @cons a b rest rest' hentry hrest ih =>
    obtain ⟨member, v⟩ := a
    obtain ⟨_, w⟩ := b
    obtain ⟨rfl, hvw⟩ := hentry
    simp only [insertColumns, ← (hR v w hvw).isNull]
    split
    · exact ih
    · cases e.property? member with
      | none => exact .error _
      | some p =>
        refine ih.bind fun others others' hothers => .ok ?_
        split
        · exact hothers
        · exact .cons ⟨rfl, hvw⟩ hothers

/-! ### All requests -/

theorem select_alike {q r : Query} (h : q.Alike R r) :
    Except.Alike (fun a b => b.select = a.select ∧ b.count = a.count ∧
      List.Forall₂ R a.params b.params) (select s q) (select s r) := by
  refine (run_alike (querySelects_uninfluenced hR h)).bind ?_
  rintro ⟨⟨l, shown, count⟩, n⟩ ⟨⟨l', _⟩, n'⟩ ⟨rfl, hparams⟩
  exact .ok ⟨rfl, rfl, hparams⟩

theorem count_alike {f g : Filter} (h : f.Alike R g) (entity : String) (includes : List String) :
    Except.Alike (fun a b => b.1 = a.1 ∧ List.Forall₂ R a.2 b.2) (count s entity f includes)
      (count s entity g includes) :=
  (run_alike (countSelect_uninfluenced hR h entity includes)).bind fun _ _ hab => .ok hab

theorem existence_alike {f g : Filter} (h : f.Alike R g) (entity : String) :
    Except.Alike (fun a b => b.1 = a.1 ∧ List.Forall₂ R a.2 b.2) (existence s entity f)
      (existence s entity g) :=
  (run_alike (existsSelect_uninfluenced hR h entity)).bind fun _ _ hab => .ok hab

theorem insert_alike {e : Entity} {row row' : Row} (h : row.Alike R row')
    (includes : List String) :
    Except.Alike (SameWrite R) (insert e row includes) (insert e row' includes) := by
  refine (insertColumns_alike hR h).bind fun columns columns' hcolumns => ?_
  have hnames : columns'.map Prod.fst = columns.map Prod.fst := by
    induction hcolumns with
    | nil => rfl
    | cons hentry _ ih => rw [List.map_cons, List.map_cons, hentry.1, ih]
  have hvalues : List.Forall₂ R (columns.map Prod.snd) (columns'.map Prod.snd) := by
    rw [List.forall₂_map_left_iff, List.forall₂_map_right_iff]
    exact hcolumns.imp fun _ _ hentry => hentry.2
  cases hcolumns with
  | nil => exact .error _
  | cons hentry hrest =>
    refine .ok ⟨?_, hvalues⟩
    simp only [hnames, List.length_cons, hrest.length_eq]

theorem update_alike {e : Entity} {row row' : OrderedMap Write} {f g : Filter}
    (hrow : row.WritesAlike R row') (h : f.Alike R g) (members : List String) :
    Except.Alike (Option.Rel (SameWrite R)) (update s e row f members)
      (update s e row' g members) := by
  refine (run_alike (updateStatement_uninfluenced hR hrow h members)).bind ?_
  rintro ⟨statement, n⟩ ⟨_, n'⟩ ⟨rfl, hparams⟩
  refine .ok ?_
  simp only
  split
  · exact .none
  · exact .some ⟨rfl, hparams⟩

theorem delete_alike {e : Entity} {f g : Filter} (h : f.Alike R g) :
    Except.Alike (SameWrite R) (delete s e f) (delete s e g) := by
  refine (run_alike (writeFilterExpr_uninfluenced hR h)).bind ?_
  rintro ⟨filter, n⟩ ⟨_, n'⟩ ⟨rfl, hparams⟩
  exact .ok ⟨rfl, hparams⟩

end

/-- **Values have no influence.** Let values stand in any relation that never relates null to
another value nor a pattern to what is none. Requests that are the same but for related values fail
with the same error, or they have the same statements and parameters that are related place by
place. -/
theorem values_without_influence (hR : ∀ v w, R v w → v.SameKind w) (s : Schema)
    {r r' : Request} (h : r.Alike R r') :
    Except.Alike (SameStatements R) (r.compile s) (r'.compile s) := by
  cases h with
  | query h =>
    refine (select_alike hR h).map fun a b ⟨hselect, hcount, hparams⟩ => ?_
    rw [hselect, hcount]
    exact sameStatements hparams
  | page h =>
    refine (select_alike hR h).map fun a b ⟨hselect, _, hparams⟩ => ?_
    simp only [CompiledQuery.page, hselect]
    exact sameStatements hparams
  | count h =>
    refine (count_alike hR h ..).map ?_
    rintro ⟨select, params⟩ ⟨_, params'⟩ ⟨rfl, hparams⟩
    exact sameStatements hparams
  | existence h =>
    refine (existence_alike hR h _).map ?_
    rintro ⟨select, params⟩ ⟨_, params'⟩ ⟨rfl, hparams⟩
    exact sameStatements hparams
  | insert h =>
    refine (insert_alike hR h _).map fun a b ⟨hstatement, hparams⟩ => ?_
    rw [hstatement]
    exact sameStatements hparams
  | update hrow h =>
    refine (update_alike hR hrow h _).map fun a b hab => ?_
    cases hab with
    | none => exact sameStatements .nil
    | some hab =>
      simp only [hab.1]
      exact sameStatements hab.2
  | delete h =>
    refine (delete_alike hR h).map fun a b ⟨hstatement, hparams⟩ => ?_
    rw [hstatement]
    exact sameStatements hparams

/-- The orders in a state of the customers with a name, or with a name like a pattern. -/
def ordersOf (status name : String) : Query where
  entity := "Order"
  filter := .composite .and [
    .condition ⟨"Status", .equal, .value (.text status)⟩,
    .condition ⟨"CustomerId", .isIn, .query {
      entity := "Customer", filter := .condition ⟨"Name", .equal, .value (.text name)⟩
      members := ["Id"], sorting := [], grouping := none, paging := none}⟩]
  members := ["Id", "Customer.Name"]
  sorting := []
  grouping := none
  paging := none

/-- Two names that are patterns make one statement. -/
theorem values_without_influence_ordersOf : ∃ statements,
    (Request.query (ordersOf "open" "A%")).compile salesSchema =
        .ok (statements, [.text "open", .text "A%"]) ∧
      (Request.query (ordersOf "held" "%' OR 1 = 1")).compile salesSchema =
        .ok (statements, [.text "held", .text "%' OR 1 = 1"]) := by
  have halike : Request.Alike Value.SameKind (.query (ordersOf "open" "A%"))
      (.query (ordersOf "held" "%' OR 1 = 1")) :=
    .query (.intro (.composite (.cons (.condition (.intro (.value ⟨rfl, rfl⟩)))
      (.cons (.condition (.intro (.query (.intro (.condition (.intro (.value ⟨rfl, rfl⟩))) .none))))
        .nil))) .none)
  have hsame := values_without_influence (fun _ _ h => h) salesSchema halike
  obtain ⟨⟨statements, params⟩, hfirst, hparams⟩ := Except.exists_ok
    (x := (Request.query (ordersOf "open" "A%")).compile salesSchema)
    (fun a => decide (a.2 = [.text "open", .text "A%"])) (by decide +kernel)
  obtain ⟨⟨others, params'⟩, hsecond, hparams'⟩ := Except.exists_ok
    (x := (Request.query (ordersOf "held" "%' OR 1 = 1")).compile salesSchema)
    (fun a => decide (a.2 = [.text "held", .text "%' OR 1 = 1"])) (by decide +kernel)
  rw [hfirst, hsecond] at hsame
  obtain ⟨hstatements, -, -⟩ : SameStatements _ (statements, params) (others, params') := by
    cases hsame with
    | ok h => exact h
  obtain rfl : others = statements := hstatements
  obtain rfl : params = _ := of_decide_eq_true hparams
  obtain rfl : params' = _ := of_decide_eq_true hparams'
  exact ⟨others, hfirst, hsecond⟩

end EntityQuery.Plan
