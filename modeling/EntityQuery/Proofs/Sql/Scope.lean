import EntityQuery.Sql.Statement
import EntityQuery.Text.Case

/-! What the columns of a select may refer to.

The sources of a select are its FROM and its joins. Its columns are columns of these, named by
alias; a join condition sees no source that comes behind its own, and an EXISTS in it nothing but
its own sources and the join it stands at. What is read from a derived table is a result of the
select that the table is. The query of a membership test stands alone and has aliases that nothing
around it has. -/
namespace EntityQuery.Sql

/-- A source as columns see it: its alias and, where they are known, the names of its columns. -/
structure Visible where
  aliasName : String
  columns : Option (List String)

/-- Names are compared up to the case of ASCII letters. -/
def Visible.offers (v : Visible) (name : String) : Prop :=
  ∀ names, v.columns = some names → ∃ known ∈ names, Text.sameName known name = true

def Item.resultName? : Item → Option String
  | .expr _ name => name
  | .wildcard _ => none

/-- The names of the columns that a select shows, as far as they are given. -/
def Select.resultNames (s : Select) : List String := s.items.filterMap Item.resultName?

def Source.visible : Source → Visible
  | .table _ name => ⟨name.getD "", none⟩
  | .derived select name => ⟨name, some select.resultNames⟩

namespace Select

def sources (s : Select) : List Visible := s.source.visible :: s.joins.map (·.source.visible)

def aliases (s : Select) : List String := s.sources.map (·.aliasName)

end Select

/-- Where an expression stands. -/
structure Place where
  /-- The sources whose columns it may read. -/
  sources : List Visible
  /-- The sources that an EXISTS in it may read besides its own. -/
  attached : List Visible
  /-- The aliases of the selects around it. -/
  around : List String

/-- Where the clauses of a select stand. -/
def Select.inside (s : Select) (outer : List Visible) (around : List String) : Place :=
  ⟨s.sources ++ outer, [], around ++ s.aliases⟩

mutual

/-- An expression reads nothing but what its place shows. -/
inductive Expr.Scoped : Place → Expr → Prop where
  | and {p : Place} {es : List Expr} : (∀ e ∈ es, e.Scoped p) → (Expr.and es).Scoped p
  | or {p : Place} {es : List Expr} : (∀ e ∈ es, e.Scoped p) → (Expr.or es).Scoped p
  | binary {p : Place} {lhs rhs : Expr} {op : BinaryOp} : lhs.Scoped p → rhs.Scoped p →
    (Expr.binary lhs op rhs).Scoped p
  | between {p : Place} {e low high : Expr} : e.Scoped p → low.Scoped p → high.Scoped p →
    (Expr.between e low high).Scoped p
  | column {p : Place} {v : Visible} {name : String} : v ∈ p.sources → v.offers name →
    (Expr.column (some v.aliasName) name).Scoped p
  | countAll {p : Place} : Expr.countAll.Scoped p
  | hasRow {p : Place} {select : Select} : select.Scoped p.attached p.around p.around →
    (Expr.hasRow select).Scoped p
  | call {p : Place} {function : String} {args : List Expr} : (∀ e ∈ args, e.Scoped p) →
    (Expr.call function args).Scoped p
  | inList {p : Place} {e : Expr} {list : List Expr} {negate : Bool} : e.Scoped p →
    (∀ e ∈ list, e.Scoped p) → (Expr.inList e list negate).Scoped p
  | inSelect {p : Place} {e : Expr} {select : Select} {negate : Bool} : e.Scoped p →
    select.Scoped [] p.around p.around → (Expr.inSelect e select negate).Scoped p
  | isNull {p : Place} {e : Expr} {negate : Bool} : e.Scoped p → (Expr.isNull e negate).Scoped p
  | literal {p : Place} {n : Int} : (Expr.literal n).Scoped p
  | null {p : Place} : Expr.null.Scoped p
  | param {p : Place} {n : Nat} : (Expr.param n).Scoped p

/-- A select reads nothing but its own sources and those of `outer`. It introduces no alias of
`avoid`, and the selects around it have the aliases `around`. -/
inductive Select.Scoped : List Visible → List String → List String → Select → Prop where
  | intro {outer : List Visible} {avoid around : List String} {s : Select}
    (named : ∀ name ∈ s.aliases, name ≠ "")
    (distinct : s.aliases.Nodup)
    (new : ∀ name ∈ s.aliases, name ∉ avoid)
    (derived : ∀ inner name, s.source = .derived inner name →
      inner.Scoped [] avoid (around ++ s.aliases))
    (joined : ∀ j ∈ s.joins, ∀ inner name, j.source = .derived inner name →
      inner.Scoped [] avoid (around ++ s.aliases))
    (on : ∀ earlier j later, s.joins = earlier ++ j :: later → j.on.Scoped
      ⟨s.source.visible :: (earlier ++ [j]).map (·.source.visible) ++ outer, [j.source.visible],
        around ++ s.aliases⟩)
    (items : ∀ e name, Item.expr e name ∈ s.items → e.Scoped (s.inside outer around))
    (results : ∀ name ∈ s.resultNames, name ≠ "")
    (wildcards : ∀ name, Item.wildcard name ∈ s.items → name ∈ s.aliases)
    (filter : ∀ e, s.filter = some e → e.Scoped (s.inside outer around))
    (groupBy : ∀ e ∈ s.groupBy, e.Scoped (s.inside outer around))
    (having : ∀ e, s.having = some e → e.Scoped (s.inside outer around))
    (orderBy : ∀ o ∈ s.orderBy, o.expr.Scoped (s.inside outer around)) :
    s.Scoped outer avoid around

end

/-- A select that stands alone. -/
def Select.WellScoped (s : Select) : Prop := s.Scoped [] [] []

/-! ### Small parts -/

theorem visible_ofTable (t : TableName) (name : String) :
    (Source.ofTable t name).visible = ⟨name, none⟩ := by
  unfold Source.ofTable aliasName?
  split
  · next hempty => rw [hempty]; rfl
  · rfl

theorem ofTable_ne_derived {t : TableName} {name derived : String} {inner : Select} :
    Source.ofTable t name ≠ .derived inner derived := by
  simp [Source.ofTable]

section Expr
variable {p : Place} {es : List Expr}

theorem scoped_qualified {v : Visible} {name : String} (hne : v.aliasName ≠ "")
    (hv : v ∈ p.sources) (ho : v.offers name) : (Expr.qualified v.aliasName name).Scoped p := by
  rw [Expr.qualified, aliasName?, if_neg hne]
  exact .column hv ho

theorem scoped_allOf? (h : ∀ e ∈ es, e.Scoped p) {e : Expr} (he : Expr.allOf? es = some e) :
    e.Scoped p := by
  match es with
  | [] => simp [Expr.allOf?] at he
  | [only] => exact Option.some.inj he ▸ h only (List.mem_cons_self ..)
  | _ :: _ :: _ => exact Option.some.inj he ▸ .and h

theorem scoped_anyOf? (h : ∀ e ∈ es, e.Scoped p) {e : Expr} (he : Expr.anyOf? es = some e) :
    e.Scoped p := by
  match es with
  | [] => simp [Expr.anyOf?] at he
  | [only] => exact Option.some.inj he ▸ h only (List.mem_cons_self ..)
  | _ :: _ :: _ => exact Option.some.inj he ▸ .or h

end Expr

namespace Select
variable {outer : List Visible} {avoid around : List String} {s : Select}

/-- An item reads what its place shows, and the name it gives is not empty. -/
def Shows (p : Place) (names : List String) : Item → Prop
  | .expr e name => e.Scoped p ∧ ∀ given, name = some given → given ≠ ""
  | .wildcard name => name ∈ names

/-- A select may show and sort by anything that its sources have. -/
theorem Scoped.showing (h : s.Scoped outer avoid around) (items : List Item)
    (orders : List OrderBy) (limit : Option Limit)
    (hitems : ∀ i ∈ items, Shows (s.inside outer around) s.aliases i)
    (horders : ∀ o ∈ orders, o.expr.Scoped (s.inside outer around)) :
    Select.Scoped outer avoid around {s with items, orderBy := orders, limit} := by
  cases h with
  | intro named distinct new derived joined on _ _ _ filter groupBy having _ =>
    refine .intro named distinct new derived joined on ?_ ?_ ?_ filter groupBy having horders
    · exact fun e name hi => (hitems _ hi).1
    · intro name hname
      obtain ⟨i, hi, hgiven⟩ := List.mem_filterMap.1 hname
      cases i with
      | expr e given => exact (hitems _ hi).2 name hgiven
      | wildcard _ => simp [Item.resultName?] at hgiven
    · exact fun name hi => hitems _ hi

theorem Scoped.limited (h : s.Scoped outer avoid around) (limit : Option Limit) :
    Select.Scoped outer avoid around {s with limit} := by
  cases h with
  | intro named distinct new derived joined on items results wildcards filter groupBy having
      order =>
    exact .intro named distinct new derived joined on items results wildcards filter groupBy having
      order

/-- A select from one source, under a filter and with nothing to show. -/
theorem scoped_ofSource {source : Source} (hne : source.visible.aliasName ≠ "")
    (hnew : source.visible.aliasName ∉ avoid)
    (hderived : ∀ inner name, source = .derived inner name →
      inner.Scoped [] avoid (around ++ [source.visible.aliasName])) {filter : Option Expr}
    (hfilter : ∀ e, filter = some e →
      e.Scoped ⟨source.visible :: outer, [], around ++ [source.visible.aliasName]⟩) :
    Select.Scoped outer avoid around {Select.of source with filter} := by
  refine .intro ?_ ?_ ?_ hderived ?_ ?_ ?_ ?_ ?_ hfilter ?_ ?_ ?_
  · simpa [aliases, sources, Select.of] using hne
  · simp [aliases, sources, Select.of]
  · simpa [aliases, sources, Select.of] using hnew
  · simp [Select.of]
  · simp [Select.of]
  · simp [Select.of]
  · simp [resultNames, Select.of]
  · simp [Select.of]
  · simp [Select.of]
  · simp [Select.of]
  · simp [Select.of]

end Select
end EntityQuery.Sql
