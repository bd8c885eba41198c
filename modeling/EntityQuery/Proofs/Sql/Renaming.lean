import EntityQuery.Proofs.JoinGraph.Alias
import EntityQuery.Sql.Statement

/-! Statements under other aliases.

The aliases and the placeholders of a statement depend on what was numbered before it. A `Renaming`
says where the numbers go; a root may also lose its alias. Aliases stand in more places than where
columns are qualified: what tests for a match of a join has the alias of the join with a letter
behind it, and a column of a derived table carries in its name the alias under which it is read
inside. -/
namespace EntityQuery

/-! ### Reading aliases -/

namespace AliasKey

/-- The number in an alias. -/
def numberIn (name : String) : Nat := Nat.ofDigitChars 10 (name.toList.filter Char.isDigit) 0

/-- What an alias was made of. -/
def read? (name : String) : Option AliasKey :=
  [.table (numberIn name), .join (numberIn name), .probe (numberIn name)].find? (·.text == name)

theorem filter_isDigit_toDigits (n : Nat) :
    (Nat.toDigits 10 n).filter Char.isDigit = Nat.toDigits 10 n :=
  List.filter_eq_self.2 fun _ => isDigit_of_mem_toDigits

theorem numberIn_text (key : AliasKey) :
    numberIn key.text = match key with | .table n | .join n | .probe n => n := by
  cases key with
  | table n =>
    by_cases hn : n = 0
    · subst hn
      rfl
    · simp [numberIn, text, toList_tableAlias, hn, filter_isDigit_toDigits,
        Nat.ofDigitChars_ten_toDigits]
  | join n =>
    simp [numberIn, text, toList_joinAlias, filter_isDigit_toDigits, Nat.ofDigitChars_ten_toDigits]
  | probe n =>
    simp [numberIn, text, toList_joinAlias, filter_isDigit_toDigits, Nat.ofDigitChars_ten_toDigits]

theorem text_of_read? {name : String} {key : AliasKey} (h : read? name = some key) :
    key.text = name := by
  simpa using List.find?_some h

theorem read?_text (key : AliasKey) : read? key.text = some key := by
  have hmem : key ∈ [AliasKey.table (numberIn key.text), .join (numberIn key.text),
      .probe (numberIn key.text)] := by
    rw [numberIn_text]
    cases key <;> simp
  cases hread : read? key.text with
  | none => simpa using List.find?_eq_none.1 hread key hmem
  | some found => rw [text_injective (text_of_read? hread)]

/-- Aliases have no underscore, so one ends where the first underscore stands. -/
theorem underscore_notMem_text (key : AliasKey) : '_' ∉ key.text.toList := by
  have hjoin := notMem_joinAlias (c := '_') (by decide) (by decide)
  cases key with
  | table n => exact notMem_tableAlias (by decide) (by decide) n
  | join n => exact hjoin n
  | probe n => simp [text, hjoin n]

end AliasKey

namespace Sql

/-! ### Renamings -/

/-- Where the numbers of a statement go. -/
structure Renaming where
  /-- A root whose number goes nowhere loses its alias. -/
  table : Nat → Option Nat
  join : Nat → Nat
  placeholder : Nat → Nat

namespace Renaming

/-- All numbers stay. -/
def same : Renaming := ⟨some, id, id⟩

variable (ρ : Renaming)

def key : AliasKey → Option AliasKey
  | .table n => (ρ.table n).map .table
  | .join n => some (.join (ρ.join n))
  | .probe n => some (.probe (ρ.join n))

/-- The alias in place of an alias. What is no alias stays. -/
def name (aliasName : String) : Option String :=
  match AliasKey.read? aliasName with
  | some key => (ρ.key key).map AliasKey.text
  | none => some aliasName

/-- The name of a column of a derived table: up to the first underscore it is an alias. -/
def result (column : String) : String :=
  (ρ.name (String.ofList (column.toList.takeWhile (· != '_')))).getD "" ++
    String.ofList (column.toList.dropWhile (· != '_'))

theorem name_text (key : AliasKey) : ρ.name key.text = (ρ.key key).map AliasKey.text := by
  rw [name, AliasKey.read?_text]

theorem result_append (key : AliasKey) (rest : String) :
    ρ.result (key.text ++ "_" ++ rest) = (ρ.name key.text).getD "" ++ "_" ++ rest := by
  have hfront : ∀ c ∈ key.text.toList, (c != '_') = true := fun c hc => by
    simpa using fun h : c = '_' => key.underscore_notMem_text (h ▸ hc)
  have hlist : (key.text ++ "_" ++ rest).toList = key.text.toList ++ '_' :: rest.toList := by simp
  rw [result, hlist, List.takeWhile_append_of_pos hfront, List.dropWhile_append_of_pos hfront]
  simp [String.append_assoc, String.ofList_cons]

@[simp] theorem same_name (aliasName : String) : same.name aliasName = some aliasName := by
  unfold name
  split
  · next key h =>
    rw [← AliasKey.text_of_read? h]
    cases key <;> rfl
  · rfl

@[simp] theorem same_result (column : String) : same.result column = column := by
  rw [result, same_name, Option.getD_some, ← String.ofList_append, List.takeWhile_append_dropWhile,
    String.ofList_toList]

end Renaming

/-! ### Renaming statements -/

def Source.derivedName? : Source → Option String
  | .table _ _ => none
  | .derived _ aliasName => some aliasName

/-- The aliases of derived tables among sources. -/
def derivedNames (source : Source) (joins : List Join) : List String :=
  (source :: joins.map (·.source)).filterMap Source.derivedName?

section
variable (ρ : Renaming)

mutual

/-- An expression under a renaming, where `derived` are the aliases of derived tables around it. -/
def Expr.renamed : Expr → List String → Expr
  | .and es, derived => .and (Expr.allRenamed es derived)
  | .or es, derived => .or (Expr.allRenamed es derived)
  | .binary lhs op rhs, derived => .binary (lhs.renamed derived) op (rhs.renamed derived)
  | .between e low high, derived =>
    .between (e.renamed derived) (low.renamed derived) (high.renamed derived)
  | .column none column, _ => .column none column
  | .column (some aliasName) column, derived =>
    .column (ρ.name aliasName) (if aliasName ∈ derived then ρ.result column else column)
  | .countAll, _ => .countAll
  | .hasRow select, derived => .hasRow (select.renamed derived)
  | .call function args, derived => .call function (Expr.allRenamed args derived)
  | .inList e list negate, derived =>
    .inList (e.renamed derived) (Expr.allRenamed list derived) negate
  | .inSelect e select negate, derived =>
    .inSelect (e.renamed derived) (select.renamed derived) negate
  | .isNull e negate, derived => .isNull (e.renamed derived) negate
  | .literal n, _ => .literal n
  | .null, _ => .null
  | .param n, _ => .param (ρ.placeholder n)
termination_by structural e => e

def Expr.allRenamed : List Expr → List String → List Expr
  | [], _ => []
  | e :: rest, derived => e.renamed derived :: Expr.allRenamed rest derived
termination_by structural es => es

def Expr.renamed? : Option Expr → List String → Option Expr
  | none, _ => none
  | some e, derived => some (e.renamed derived)
termination_by structural e => e

def Source.renamed : Source → List String → Source
  | .table name aliasName, _ => .table name (aliasName.bind ρ.name)
  | .derived select aliasName, derived =>
    .derived (select.renamed derived) ((ρ.name aliasName).getD "")
termination_by structural s => s

def Item.renamed : Item → List String → Item
  | .expr e name, derived => .expr (e.renamed derived) (name.map ρ.result)
  | .wildcard aliasName, _ => .wildcard ((ρ.name aliasName).getD "")
termination_by structural i => i

def Item.allRenamed : List Item → List String → List Item
  | [], _ => []
  | i :: rest, derived => i.renamed derived :: Item.allRenamed rest derived
termination_by structural is => is

/-- A join, where `derived` are also the derived tables that its condition sees. Its source does
not see them. -/
def Join.renamed : Join → List String → List String → Join
  | ⟨kind, source, on⟩, outer, derived => ⟨kind, source.renamed outer, on.renamed derived⟩
termination_by structural j => j

def Join.allRenamed : List Join → List String → List String → List Join
  | [], _, _ => []
  | j :: rest, outer, derived => j.renamed outer derived :: Join.allRenamed rest outer derived
termination_by structural js => js

def OrderBy.renamed : OrderBy → List String → OrderBy
  | ⟨e, direction⟩, derived => ⟨e.renamed derived, direction⟩
termination_by structural o => o

def OrderBy.allRenamed : List OrderBy → List String → List OrderBy
  | [], _ => []
  | o :: rest, derived => o.renamed derived :: OrderBy.allRenamed rest derived
termination_by structural os => os

def Select.renamed : Select → List String → Select
  | ⟨items, source, joins, filter, groupBy, having, orderBy, limit⟩, outer =>
    let derived := outer ++ derivedNames source joins
    { items := Item.allRenamed items derived
      source := source.renamed outer
      joins := Join.allRenamed joins outer derived
      filter := Expr.renamed? filter derived
      groupBy := Expr.allRenamed groupBy derived
      having := Expr.renamed? having derived
      orderBy := OrderBy.allRenamed orderBy derived
      limit }
termination_by structural s => s

end

theorem allRenamed_eq_map (es : List Expr) (derived : List String) :
    Expr.allRenamed ρ es derived = es.map (·.renamed ρ derived) := by
  induction es with
  | nil => rfl
  | cons e rest ih => rw [Expr.allRenamed, ih, List.map_cons]

end

/-! ### Renaming nothing -/

mutual

theorem Expr.renamed_same : ∀ (e : Expr) (derived : List String), e.renamed .same derived = e
  | .and es, derived | .or es, derived => by
    rw [Expr.renamed, Expr.allRenamed_same es]
  | .binary lhs op rhs, derived => by
    rw [Expr.renamed, Expr.renamed_same lhs, Expr.renamed_same rhs]
  | .between e low high, derived => by
    rw [Expr.renamed, Expr.renamed_same e, Expr.renamed_same low, Expr.renamed_same high]
  | .column none column, _ => rfl
  | .column (some aliasName) column, derived => by simp [Expr.renamed]
  | .countAll, _ | .literal _, _ | .null, _ | .param _, _ => rfl
  | .hasRow select, derived => by rw [Expr.renamed, Select.renamed_same select]
  | .call function args, derived => by rw [Expr.renamed, Expr.allRenamed_same args]
  | .inList e list negate, derived => by
    rw [Expr.renamed, Expr.renamed_same e, Expr.allRenamed_same list]
  | .inSelect e select negate, derived => by
    rw [Expr.renamed, Expr.renamed_same e, Select.renamed_same select]
  | .isNull e negate, derived => by rw [Expr.renamed, Expr.renamed_same e]
termination_by structural e => e

theorem Expr.allRenamed_same : ∀ (es : List Expr) (derived : List String),
    Expr.allRenamed .same es derived = es
  | [], _ => rfl
  | e :: rest, derived => by
    rw [Expr.allRenamed, Expr.renamed_same e, Expr.allRenamed_same rest]
termination_by structural es => es

theorem Expr.renamed?_same : ∀ (e : Option Expr) (derived : List String),
    Expr.renamed? .same e derived = e
  | none, _ => rfl
  | some e, derived => by rw [Expr.renamed?, Expr.renamed_same e]
termination_by structural e => e

theorem Source.renamed_same : ∀ (s : Source) (derived : List String), s.renamed .same derived = s
  | .table name aliasName, derived => by cases aliasName <;> simp [Source.renamed]
  | .derived select aliasName, derived => by
    rw [Source.renamed, Select.renamed_same select, Renaming.same_name, Option.getD_some]
termination_by structural s => s

theorem Item.renamed_same : ∀ (i : Item) (derived : List String), i.renamed .same derived = i
  | .expr e name, derived => by
    rw [Item.renamed, Expr.renamed_same e]
    cases name <;> simp
  | .wildcard aliasName, derived => by simp [Item.renamed]
termination_by structural i => i

theorem Item.allRenamed_same : ∀ (is : List Item) (derived : List String),
    Item.allRenamed .same is derived = is
  | [], _ => rfl
  | i :: rest, derived => by
    rw [Item.allRenamed, Item.renamed_same i, Item.allRenamed_same rest]
termination_by structural is => is

theorem Join.renamed_same : ∀ (j : Join) (outer derived : List String),
    j.renamed .same outer derived = j
  | ⟨kind, source, on⟩, outer, derived => by
    rw [Join.renamed, Source.renamed_same source, Expr.renamed_same on]
termination_by structural j => j

theorem Join.allRenamed_same : ∀ (js : List Join) (outer derived : List String),
    Join.allRenamed .same js outer derived = js
  | [], _, _ => rfl
  | j :: rest, outer, derived => by
    rw [Join.allRenamed, Join.renamed_same j, Join.allRenamed_same rest]
termination_by structural js => js

theorem OrderBy.renamed_same : ∀ (o : OrderBy) (derived : List String),
    o.renamed .same derived = o
  | ⟨e, direction⟩, derived => by rw [OrderBy.renamed, Expr.renamed_same e]
termination_by structural o => o

theorem OrderBy.allRenamed_same : ∀ (os : List OrderBy) (derived : List String),
    OrderBy.allRenamed .same os derived = os
  | [], _ => rfl
  | o :: rest, derived => by
    rw [OrderBy.allRenamed, OrderBy.renamed_same o, OrderBy.allRenamed_same rest]
termination_by structural os => os

theorem Select.renamed_same : ∀ (s : Select) (outer : List String), s.renamed .same outer = s
  | ⟨items, source, joins, filter, groupBy, having, orderBy, limit⟩, outer => by
    rw [Select.renamed, Item.allRenamed_same items, Source.renamed_same source,
      Join.allRenamed_same joins, Expr.renamed?_same filter, Expr.allRenamed_same groupBy,
      Expr.renamed?_same having, OrderBy.allRenamed_same orderBy]
termination_by structural s => s

end

end Sql
end EntityQuery
