import EntityQuery.Proofs.Member.Worded
import EntityQuery.Proofs.Plan.Compiled
import EntityQuery.Proofs.Plan.Induction
import EntityQuery.Proofs.Sql.ReadableSelect

/-! What a filter compiles to is known by its text.

Whatever names the schema and the paths have, they are written between quotes. What is written
without them are keywords and operators, numbers, the aliases of scopes and the functions of
aggregates, and those are words. So the expression of every filter is read back, together with the
queries behind its conditions, and two of them have one text only if they are one expression. -/
namespace EntityQuery.Plan

open Member (Column IsWord)
open Sql (Expr Select Dialect Readable ReadsTerm ReadsTest ReadsSource ReadsSelect)

/-- The root's alias is a word, or the root has none. Those of joins are always words. -/
def Layout.Worded (l : Layout) : Prop := l.names.table = "" ∨ IsWord l.names.table

variable {s : Schema} {l : Layout} {d : Dialect}

theorem Layout.Worded.aliasName (hl : l.Worded) (scope : Nat) :
    l.aliasName scope = "" ∨ IsWord (l.aliasName scope) := by
  cases scope with
  | zero => exact hl
  | succ j => exact .inr (isWord_joinAlias _)

theorem isWord_laidOut (g : JoinGraph) (columns : List Column) (supply : AliasSupply) :
    IsWord (laidOut g columns supply).names.table :=
  isWord_tableAlias supply.tables

theorem readsSource_ofTable (t : Sql.TableName) {name : String} (h : IsWord name) :
    ReadsSource d (.ofTable t name) := by
  rw [Sql.Source.ofTable, Sql.aliasName?, if_neg h.ne_empty]
  exact Sql.readsSource_table t h

theorem readsTest_equal {a b : String} (ha : a = "" ∨ IsWord a) (hb : b = "" ∨ IsWord b)
    (column column' : String) :
    Readable d (.equal (.qualified a column) (.qualified b column')) :=
  (Sql.readsTest_binary (Sql.readsTerm_qualified ha _) .eq
    (Sql.readsTerm_qualified hb _)).readable rfl

theorem readable_never : Readable d .never :=
  (Sql.readsTest_binary (Sql.readsTerm_literal 1) .eq (Sql.readsTerm_literal 0)).readable rfl

/-! ### Columns and joins -/

section Layout
variable (hl : l.Worded)
include hl

theorem readsTerm_expr {c : Column} (hc : c.Worded) : ReadsTerm d (l.expr c) := by
  unfold Layout.expr Column.expr
  cases hm : c.measure with
  | value => exact Sql.readsTerm_qualified (hl.aliasName c.scope) c.column
  | aggregate function =>
    exact Sql.readsTerm_call (hc function hm) (hl.aliasName c.scope) c.column
  | rowCount => exact Sql.readsTerm_countAll

theorem readsTerm_orderBy {sorted : List (Column × Direction)}
    (hc : ∀ c ∈ sorted.map Prod.fst, c.Worded) :
    ∀ o ∈ orderBy l sorted, ReadsTerm d o.expr := by
  intro o ho
  obtain ⟨⟨c, direction⟩, hmem, rfl⟩ := List.mem_map.1 ho
  exact readsTerm_expr hl (hc c (List.mem_map_of_mem hmem))

theorem readable_matchExists (j : Nat) : Readable d (matchExists s l j) := by
  have hprobe : IsWord (l.aliasName (j + 1) ++ "X") := isWord_probe (isWord_joinAlias _)
  apply (Sql.readsTerm_hasRow (Select.Shown.reads _)).test.readable rfl
  exact {Select.Framed.ofSource (readsSource_ofTable _ hprobe) with
    item := ⟨_, none, rfl, Sql.readsTerm_literal 0⟩
    orderBy := fun o ho => absurd ho List.not_mem_nil
    filter := by
      intro e he
      apply Sql.readable_allOf? _ he
      intro key hkey
      obtain ⟨pair, -, rfl⟩ := List.mem_map.1 hkey
      exact readsTest_equal (.inr hprobe) (hl.aliasName _) _ _ }

theorem readable_join (j : Nat) :
    ReadsSource d (join s l none j).source ∧ Readable d (join s l none j).on := by
  refine ⟨readsSource_ofTable _ (isWord_joinAlias _), ?_⟩
  have hconditions : ∀ e ∈ joinConditions s l none j, Readable d e := by
    intro e he
    simp only [joinConditions, List.mem_append, List.mem_map] at he
    rcases he with ⟨pair, _, rfl⟩ | ⟨child, _, rfl⟩
    · exact readsTest_equal (hl.aliasName _) (hl.aliasName _) _ _
    · exact readable_matchExists hl child
  show Readable d ((Expr.allOf? (joinConditions s l none j)).getD .never)
  cases hon : Expr.allOf? (joinConditions s l none j) with
  | none => exact readable_never
  | some e => exact Sql.readable_allOf? hconditions hon

end Layout

/-! ### Filters -/

theorem readable_test {column t : Expr} {k : Nat} {bound : List Value}
    (h : Test column k t bound) (hc : ReadsTerm d column) : Readable d t := by
  have hparam (n : Nat) : ReadsTerm d (.param n) := Sql.readsTerm_param n
  cases h with
  | isNull negate => exact (Sql.readsTest_isNull hc negate).readable rfl
  | never => exact readable_never
  | binary op v => exact (Sql.readsTest_binary hc op (hparam k)).readable rfl
  | between low high => exact (Sql.readsTest_between hc (hparam k) (hparam (k + 1))).readable rfl
  | inList _ negate => exact (Sql.readsTest_inList hc _ negate).readable rfl

theorem readable_joined? {es : List Expr} (h : ∀ e ∈ es, Readable d e) (k : Combinator) :
    ∀ e, joined? k es = some e → Readable d e := by
  intro e he
  cases k with
  | and => exact Sql.readable_allOf? h he
  | or => exact Sql.readable_anyOf? h he

theorem filtered_framed {g : JoinGraph} {columns : List Column} {f : Filter}
    {compile : Layout → Compile (Option Expr)} {select : Select} {n n' : Numbering}
    (h : filtered s g columns f compile n = .ok ((l, select), n'))
    (hc : ∀ l m e, l.Worded → compile l m = .ok (e, n') → ∀ t, e = some t → Readable d t) :
    l.Worded ∧ select.Framed d ∧ select.orderBy = [] := by
  obtain ⟨grown, conditions, filter, -, rfl, hfilter, rfl⟩ := filtered_ok h
  have hroot := isWord_laidOut grown (columns ++ conditions) n.aliases
  have hl : (laidOut grown (columns ++ conditions) n.aliases).Worded := .inr hroot
  refine ⟨hl, {Select.Framed.ofSource (readsSource_ofTable _ hroot) with
    joins := ?_, filter := hc _ _ _ hl hfilter}, rfl⟩
  intro j hj
  obtain ⟨k, -, rfl⟩ := List.mem_map.1 hj
  exact readable_join hl k

theorem Projected.reads {column : Column} {sorted : List (Column × Direction)}
    {select projected : Select} {paging : Option Paging} {m n' : Numbering}
    (h : Projected l column sorted select m paging projected n') (hl : l.Worded)
    (hs : select.Framed d) (hunsorted : select.orderBy = []) (hcolumn : column.Worded)
    (hsorted : ∀ c ∈ sorted.map Prod.fst, c.Worded) : ReadsSelect d projected := by
  have hterm : ReadsTerm d (l.expr column) := readsTerm_expr hl hcolumn
  apply Select.Shown.reads
  cases h with
  | whole _ =>
    exact {hs with
      item := ⟨_, none, rfl, hterm⟩
      orderBy := fun o ho => absurd (hunsorted ▸ ho) List.not_mem_nil }
  | @page limit _ =>
    have hpage : ReadsSelect d
        {select with items := [l.item column], orderBy := orderBy l sorted, limit := some limit} :=
      Select.Shown.reads {hs with
        item := ⟨_, _, rfl, hterm⟩
        orderBy := readsTerm_orderBy hl hsorted }
    have hname := isWord_tableAlias m.aliases.tables
    exact {Select.Framed.ofSource (Sql.readsSource_derived hpage hname) with
      item := ⟨_, none, rfl, Sql.readsTerm_qualified (.inr hname) _⟩
      orderBy := fun o ho => absurd ho List.not_mem_nil }

/-- Where the aliases of the layout are words every filter is read back, and the query behind a
condition brings a layout of its own. -/
theorem readable_invariant (d : Dialect) (s : Schema) : Invariant s
    (fun _ l _ e _ => l.Worded → ∀ t, e = some t → Readable d t)
    (fun _ l _ es _ => l.Worded → ∀ e ∈ es, Readable d e)
    (fun _ _ select _ => ReadsSelect d select) where
  nil _ := by simp
  cons he hes hl := by
    intro e hmem
    rcases List.mem_append.1 hmem with hmem | hmem
    · exact he hl e (Option.mem_toList.1 hmem)
    · exact hes hl e hmem
  composite hes hl := readable_joined? (hes hl) _
  test hcolumn _ h hl := by
    intro t ht
    obtain rfl := ht
    obtain ⟨column, hresolved, rfl⟩ := memberExpr_ok hcolumn
    obtain ⟨bound, -, htest⟩ := (compare_ok h).1
    exact readable_test htest (readsTerm_expr hl (Member.worded_resolve hresolved))
  inSelect hcolumn _ hselect hl := by
    intro t heq
    obtain rfl := Option.some.inj heq
    obtain ⟨column, hresolved, rfl⟩ := memberExpr_ok hcolumn
    exact (Sql.readsTest_inSelect (readsTerm_expr hl (Member.worded_resolve hresolved)) hselect
      _).readable rfl
  query h hfilter := by
    obtain ⟨_, _, _, column, _, sorted, _, _, _, -, hcolumn, hsorted, hfiltered, hprojected⟩ :=
      subselect_ok h
    obtain ⟨hl, hinner, hunsorted⟩ := filtered_framed hfiltered fun _ _ _ hl he => hfilter he hl
    exact hprojected.reads hl hinner hunsorted (Member.worded_resolve (by rw [hcolumn]))
      (Member.worded_resolveEach (resolveSorting_ok hsorted))

/-- An expression that a filter compiles to: over any schema, behind any parameters, and in any
statement, where the scopes have the aliases that they were assigned or the one table has none. -/
def Lowered (e : Expr) : Prop :=
  ∃ s f l n n', ((∃ supply, l.names = (l.graph.assign supply).1) ∨ l.names = .bare) ∧
    filterExpr s f l n = .ok (some e, n')

theorem Lowered.readable {e : Expr} (h : Lowered e) (d : Dialect) : Readable d e := by
  obtain ⟨s, f, l, n, n', hnames, h⟩ := h
  apply (readable_invariant d s).filterExpr h _ e rfl
  obtain ⟨supply, hnames⟩ | hnames := hnames
  · exact .inr (hnames ▸ isWord_tableAlias supply.tables)
  · exact .inl (hnames ▸ rfl)

/-- **Filters are known by their texts.** In every dialect two expressions that filters compile to
have the same text only if they are the same expression. -/
theorem filter_text_injective (d : Dialect) {e e' : Expr} (h : Lowered e) (h' : Lowered e')
    (htext : e.text d = e'.text d) : e = e' := by
  have hread := (h.readable d).read?_text
  rw [htext, (h'.readable d).read?_text] at hread
  exact (Option.some.inj hread).symm

/-- Orders of some numbers under a name with quotes, a parenthesis and AND, or of the customers of a
country. -/
def quotedFilter : Filter :=
  .composite .or [
    .composite .and [
      .condition ⟨"Id", .between, .list [.int32 1, .int32 9]⟩,
      .condition ⟨"a\" AND (\"b", .equal, .value (.text "x")⟩],
    .condition ⟨"CustomerId", .isIn, .query {
      entity := "Customer", filter := .condition ⟨"CountryId", .equal, .value (.int32 7)⟩
      members := ["Id"], sorting := [], grouping := none, paging := none}⟩]

/-- What it is in SQLite. -/
def quotedText : String :=
  "(T.\"Id\" BETWEEN \x7b0\x7d AND \x7b1\x7d AND T.\"a\"\" AND (\"\"b\" = \x7b2\x7d) OR " ++
    "T.\"CustomerId\" IN (SELECT T.\"Id\" FROM \"Customer\" T WHERE T.\"CountryId\" = \x7b3\x7d)"

/-- The same in one junction more. -/
def wrappedFilter : Filter := .composite .and [quotedFilter, .condition ⟨"Id", .notIn, .list []⟩]

theorem filter_text_injective_quoted : ∃ e e' n n',
    filterExpr salesSchema quotedFilter (laidOut (.ofRoot 0) [] {}) {} = .ok (some e, n) ∧
    filterExpr salesSchema wrappedFilter (laidOut (.ofRoot 0) [] {}) {} = .ok (some e', n') ∧
    Lowered e ∧ Lowered e' ∧ e.text .sqlite = quotedText ∧ e'.text .sqlite = quotedText ∧
    e = e' := by
  have hcompiles (f : Filter)
      (h : ((filterExpr salesSchema f (laidOut (.ofRoot 0) [] {}) {}).toOption.map fun found =>
        found.1.map (Expr.text .sqlite) == some quotedText).getD false = true) :
      ∃ e n, filterExpr salesSchema f (laidOut (.ofRoot 0) [] {}) {} = .ok (some e, n) ∧
        Lowered e ∧ e.text .sqlite = quotedText := by
    obtain ⟨⟨found, n⟩, hcompile, hfound⟩ := Except.exists_ok _ h
    obtain ⟨e, he, htext⟩ := Option.map_eq_some_iff.1 (beq_iff_eq.1 hfound)
    obtain rfl : found = some e := he
    exact ⟨e, n, hcompile, ⟨_, _, _, _, _, .inl ⟨{}, rfl⟩, hcompile⟩, htext⟩
  obtain ⟨e, n, hcompile, hlowered, htext⟩ := hcompiles quotedFilter (by decide +kernel)
  obtain ⟨e', n', hcompile', hlowered', htext'⟩ := hcompiles wrappedFilter (by decide +kernel)
  exact ⟨e, e', n, n', hcompile, hcompile', hlowered, hlowered', htext, htext',
    filter_text_injective .sqlite hlowered hlowered' (htext.trans htext'.symm)⟩

end EntityQuery.Plan
