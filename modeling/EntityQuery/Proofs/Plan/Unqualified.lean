import EntityQuery.Proofs.Plan.Moved
import EntityQuery.Proofs.Plan.Reached

/-! Writes filter as reads do.

Rows are counted or tested before they are deleted, so a filter has to mean the same in a DELETE as
in a SELECT. The two make it differently. A SELECT takes an alias for its root and whatever it
joins, and a write names its table without one, so that the queries behind conditions come to other
aliases as well. Where all conditions are on the table itself that is the only difference
(`write_filters_as_read`). -/
namespace EntityQuery

/-- The first root loses its alias and those after it move up. -/
def Sql.Renaming.unqualified : Sql.Renaming where
  table n := if n = 0 then none else some (n - 1)
  join := id
  placeholder := id

namespace Plan

open Member (Column)
open Sql (Expr Select Renaming)

variable {s : Schema} {e : Entity} {f : Filter} {n : Numbering}

/-- All conditions of a filter are on columns of the root. -/
def AtRoot (s : Schema) (e : Entity) (f : Filter) : Prop :=
  ∀ c ∈ f.conditions, ∃ column, (Member.resolve s (.ofRoot e.id) c.member).2 = .ok column ∧
    column.scope = 0

/-! ### Both sides -/

theorem filtered_eq {g grown : JoinGraph} (columns : List Column) {conditions : List Column}
    (compile : Layout → Compile (Option Expr)) {l : Layout}
    (h : resolveConditions s g f = .ok (grown, conditions))
    (hl : l = laidOut grown (columns ++ conditions) n.aliases) :
    filtered s g columns f compile n = (compile l (n.named grown)).map fun (filter, m) =>
      ((l, { Select.of (rootTable s l) with
        joins := (grown.joinsTo (scopesOf (columns ++ conditions))).map (join s l none)
        filter }), m) := by
  subst hl
  show (resolved (resolveConditions s g f) n >>= _) = _
  rw [h]
  show (compile (laidOut grown (columns ++ conditions) n.aliases) (n.named grown) >>= _) = _
  cases compile (laidOut grown (columns ++ conditions) n.aliases) (n.named grown) <;> rfl

/-- Without its alias the layout of a single table is that of a write. -/
theorem renamed_bareLayout (e : Entity) (columns : List Column) :
    (laidOut (.ofRoot e.id) columns {}).Renamed .unqualified (bareLayout e) where
  graph := rfl
  label scope := by
    rw [label_laidOut, Option.bind_some, Renaming.name_text]
    cases scope with
    | zero => rfl
    | succ j => exact aliasName?_of_ne (AliasKey.text_ne_empty (.join _))

theorem corresponds_unqualified (entity : Nat) :
    Corresponds .unqualified (Numbering.named {} (.ofRoot entity)) {} where
  tables i := by
    show (if 1 + i = 0 then none else some (1 + i - 1)) = some (0 + i)
    rw [if_neg (by omega)]
    exact congrArg some (by omega)
  joins i := rfl
  params i := rfl

/-- The filter of a SELECT that tests for rows, with its parameters. -/
theorem existence_atRoot {name : String} (he : entityNamed s name = .ok e) (h : AtRoot s e f) :
    ∃ l : Layout, l.Renamed .unqualified (bareLayout e) ∧
      (Plan.existence s name f).map (fun (select, params) => (select.filter, params)) =
        (filterExpr s f l (Numbering.named {} (.ofRoot e.id))).map
          fun (filter, m) => (filter, m.params) := by
  have hroot : ∀ path ∈ f.conditions.map (·.member), ∃ column,
      (Member.resolve s (.ofRoot e.id) path).2 = .ok column ∧ column.scope = 0 := by
    intro path hpath
    obtain ⟨c, hc, rfl⟩ := List.mem_map.1 hpath
    exact h c hc
  obtain ⟨conditions, hconditions⟩ := Member.resolveEach_atRoot hroot
  have hfiltered := filtered_eq (n := {}) [] (filterExpr s f) hconditions rfl
  refine ⟨laidOut (.ofRoot e.id) ([] ++ conditions) {}, renamed_bareLayout .., ?_⟩
  · show Except.map _ ((resolved _ _ >>= _) >>= _) = _
    rw [he]
    show Except.map _ ((filtered s _ _ _ _ _ >>= _) >>= _) = _
    rw [hfiltered]
    cases filterExpr s f (laidOut (.ofRoot e.id) ([] ++ conditions) {})
      (Numbering.named {} (.ofRoot e.id)) <;> rfl

/-- The filter of a write, with its parameters. -/
theorem writeFilterExpr_atRoot (h : AtRoot s e f) :
    writeFilterExpr s e f {} = filterExpr s f (bareLayout e) {} := by
  show resolved _ _ >>= _ = _
  rw [checkConditions_eq_ok.2 h]
  rfl

theorem Advance.params_eq {n m n' m' : Numbering} (h : Advance Eq n m n' m')
    (hn : n'.params = n.params) : m'.params = m.params := by
  obtain ⟨-, -, vs, ws, hvs, hm, hm'⟩ := h
  rw [List.forall₂_eq_eq_eq] at hvs
  rw [hm, hm', hn, hvs]

theorem sameKind_of_eq (v w : Value) (h : v = w) : v.SameKind w := h ▸ ⟨rfl, rfl⟩

/-- The filter of a write is that of the SELECT, but for the aliases. -/
theorem writeFilterExpr_eq {name : String} (he : entityNamed s name = .ok e) (h : AtRoot s e f) :
    (writeFilterExpr s e f {}).map (fun (filter, m) => (filter, m.params)) =
      (Plan.existence s name f).map fun (select, params) =>
        (Expr.renamed? .unqualified select.filter [], params) := by
  obtain ⟨l, hl, hexistence⟩ := existence_atRoot he h
  have hparallel := filterExpr_parallel (s := s) sameKind_of_eq
    (Filter.Alike.refl (fun _ => rfl) f) hl _ _ (corresponds_unqualified e.id)
  have hfilters := (hparallel.map (f := fun (filter, m) => (filter, m.params))
    (g := fun (filter, m) => (filter, m.params))
    (B := fun a b => b = (Expr.renamed? .unqualified a.1 [], a.2)) fun _ _ ⟨hexpr, hadvance⟩ =>
      Prod.ext hexpr (hadvance.params_eq rfl)).eq_map
  rw [writeFilterExpr_atRoot h, hfilters, ← hexistence]
  cases Plan.existence s name f <;> rfl

/-- What is assigned depends on the numbering by the placeholders alone. -/
theorem assignmentsOf_params (e : Entity) (row : OrderedMap Write) (byKey : Bool)
    (members : List String) (n : Numbering) :
    (assignmentsOf e row byKey members {params := n.params}).map
        (fun (as, m) => (as, m.params)) =
      (assignmentsOf e row byKey members n).map fun (as, m) => (as, m.params) := by
  -- The numbers of aliases are shifted back to where a statement begins.
  have hcorresponds : Corresponds
      ⟨fun k => some (k - n.aliases.tables), fun k => k - n.aliases.joins, id⟩ n
      {params := n.params} :=
    { tables := fun i => congrArg some (by
        rw [Nat.add_sub_cancel_left]
        exact (Nat.zero_add i).symm)
      joins := fun i => (Nat.add_sub_cancel_left ..).trans (Nat.zero_add i).symm
      params := fun i => rfl }
  have hassigned := (assignmentsOf_parallel (fun _ => rfl) sameKind_of_eq
    (OrderedMap.WritesAlike.refl (fun _ => rfl) row) byKey members (e := e) _ _ hcorresponds).map
      (f := fun (as, m) => (as, m.params)) (g := fun (as, m) => (as, m.params))
      (B := fun a b => b = a) fun _ _ ⟨has, hadvance⟩ => Prod.ext has (hadvance.params_eq rfl)
  rw [hassigned.eq_map (f := fun a => a)]
  cases assignmentsOf e row byKey members n <;> rfl

/-- The update that assigns a row's members under a filter with its parameters. -/
def assigning (e : Entity) (row : OrderedMap Write) (members : List String)
    (filter : Option Expr) (params : List Value) : Except Error (Option CompiledWrite) :=
  (assignmentsOf e row false members {params}).map fun (as, n) =>
    if as.isEmpty then none else some ⟨.update ⟨tableOf e, as, filter⟩, n.params⟩

theorem assigning_ok {row : OrderedMap Write} {members : List String} {filter : Option Expr}
    {params : List Value} {w : CompiledWrite}
    (h : assigning e row members filter params = .ok (some w)) :
    ∃ as more, w = ⟨.update ⟨tableOf e, as, filter⟩, params ++ more⟩ := by
  obtain ⟨⟨as, n⟩, has, h⟩ := Except.map_eq_ok.1 h
  obtain ⟨⟨more, hmore⟩, -⟩ := assignmentsOf_ok has
  by_cases hempty : as.isEmpty
  · simp [hempty] at h
  · simp only [if_neg hempty, Option.some.injEq] at h
    exact ⟨as, more, by rw [← h, hmore]⟩

/-- An update under a filter first makes the filter, then the assignments. -/
theorem update_eq (hf : f.conditions ≠ []) (row : OrderedMap Write) (members : List String) :
    Plan.update s e row f members =
      (writeFilterExpr s e f {}).map (fun (filter, m) => (filter, m.params)) >>=
        fun (filter, params) => assigning e row members filter params := by
  have hempty : f.isEmpty = false := Bool.eq_false_iff.2 (mt f.isEmpty_iff.1 hf)
  -- What is returned is made of the assignments and the parameters alone.
  have hmade : ∀ (filter : Option Expr) (x : Except Error (List Sql.Assignment × Numbering)),
      x.map (fun (as, n) => if as.isEmpty then none else
          some (⟨.update ⟨tableOf e, as, filter⟩, n.params⟩ : CompiledWrite)) =
        (x.map fun (as, n) => (as, n.params)).map fun (as, params) => if as.isEmpty then none else
          some (⟨.update ⟨tableOf e, as, filter⟩, params⟩ : CompiledWrite) :=
    fun _ x => by cases x <;> rfl
  unfold Plan.update updateStatement
  rw [hempty]
  show (writeFilterExpr s e f {} >>= _) >>= _ = _
  cases writeFilterExpr s e f {} with
  | error fault => rfl
  | ok made =>
    obtain ⟨filter, m⟩ := made
    show (assignmentsOf e row false members m >>= _) >>= _ = assigning e row members filter m.params
    rw [assigning, hmade, assignmentsOf_params, ← hmade]
    cases assignmentsOf e row false members m <;> rfl

/-- **Writes filter as reads do.** Under a filter that asks of the table itself only, a DELETE
fails or succeeds as the SELECT that tests for rows does. It has the same parameters and, without
the alias of the root, the same WHERE. So does an UPDATE if the filter has a condition, whose
parameters come before those of the assignments. -/
theorem write_filters_as_read {name : String} (he : entityNamed s name = .ok e)
    (h : AtRoot s e f) :
    (Plan.delete s e f = (Plan.existence s name f).map fun (select, params) =>
        ⟨.delete ⟨tableOf e, Expr.renamed? .unqualified select.filter []⟩, params⟩) ∧
      (f.conditions ≠ [] → ∀ row members,
        (Plan.update s e row f members = Plan.existence s name f >>= fun (select, params) =>
          assigning e row members (Expr.renamed? .unqualified select.filter []) params) ∧
        ∀ w, Plan.update s e row f members = .ok (some w) → ∃ select params as more,
          Plan.existence s name f = .ok (select, params) ∧ w =
            ⟨.update ⟨tableOf e, as, Expr.renamed? .unqualified select.filter []⟩,
              params ++ more⟩) := by
  have hfilter := writeFilterExpr_eq he h
  refine ⟨?_, fun hf row members => ?_⟩
  · have hdelete : Plan.delete s e f = ((writeFilterExpr s e f {}).map
        fun (filter, m) => (filter, m.params)).map fun (filter, params) =>
          ⟨.delete ⟨tableOf e, filter⟩, params⟩ := by
      show writeFilterExpr s e f {} >>= _ = _
      cases writeFilterExpr s e f {} <;> rfl
    rw [hdelete, hfilter]
    cases Plan.existence s name f <;> rfl
  · have hupdate : Plan.update s e row f members =
        Plan.existence s name f >>= fun (select, params) =>
          assigning e row members (Expr.renamed? .unqualified select.filter []) params := by
      rw [update_eq hf, hfilter]
      cases Plan.existence s name f <;> rfl
    refine ⟨hupdate, fun w hw => ?_⟩
    rw [hupdate, Except.bind_eq_ok] at hw
    obtain ⟨⟨select, params⟩, hselect, hw⟩ := hw
    obtain ⟨as, more, rfl⟩ := assigning_ok hw
    exact ⟨select, params, as, more, hselect, rfl⟩

/-- The orders on hold of the customers on a page. -/
def heldOrders : Filter := .composite .and [
  .condition ⟨"Status", .equal, .value (.text "held")⟩,
  .condition ⟨"CustomerId", .isIn, .query {
    entity := "Customer", filter := .condition ⟨"Name", .like, .value (.text "A%")⟩
    members := ["Id"], sorting := [], grouping := none, paging := some ⟨1, 5, none⟩}⟩]

theorem heldOrders_atRoot : AtRoot salesSchema (salesSchema.entity 0) heldOrders := by
  obtain ⟨_, hcheck, -⟩ := Except.exists_ok (x := checkConditions salesSchema
    (salesSchema.entity 0) (.ofRoot 0) heldOrders.conditions) (fun _ => true) (by decide +kernel)
  exact checkConditions_eq_ok.1 hcheck

theorem write_filters_as_read_heldOrders : ∃ select params,
    Plan.existence salesSchema "Order" heldOrders = .ok (select, params) ∧
      Plan.delete salesSchema (salesSchema.entity 0) heldOrders = .ok
        ⟨.delete ⟨tableOf (salesSchema.entity 0), Expr.renamed? .unqualified select.filter []⟩,
          params⟩ ∧
      ∃ as more, Plan.update salesSchema (salesSchema.entity 0) heldOrder heldOrders ["Status"] =
        .ok (some ⟨.update ⟨tableOf (salesSchema.entity 0), as,
          Expr.renamed? .unqualified select.filter []⟩, params ++ more⟩) := by
  obtain ⟨⟨select, params⟩, hexistence, -⟩ := Except.exists_ok
    (x := Plan.existence salesSchema "Order" heldOrders) (fun _ => true) (by decide +kernel)
  obtain ⟨w, hw, hsome⟩ := Except.exists_ok (x := Plan.update salesSchema (salesSchema.entity 0)
    heldOrder heldOrders ["Status"]) (fun w => w.isSome) (by decide +kernel)
  obtain ⟨w, rfl⟩ := Option.isSome_iff_exists.1 hsome
  have horders : entityNamed salesSchema "Order" = .ok (salesSchema.entity 0) := rfl
  obtain ⟨hdelete, hupdate⟩ := write_filters_as_read horders heldOrders_atRoot
  obtain ⟨_, _, as, more, hsame, rfl⟩ := (hupdate (List.cons_ne_nil _ _) _ _).2 w hw
  obtain ⟨rfl, rfl⟩ := Prod.mk.inj (Except.ok.inj (hexistence.symm.trans hsame))
  exact ⟨_, _, hexistence, by rw [hdelete, hexistence]; rfl, as, more, hw⟩

end Plan
end EntityQuery
