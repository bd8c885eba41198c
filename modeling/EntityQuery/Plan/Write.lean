import EntityQuery.Plan.Condition
import EntityQuery.Record

/-! Rows to insert, updates and deletes as statements.

A statement that writes names one table without an alias, so its filter may not leave the root. -/
namespace EntityQuery.Plan

open Sql (Expr)

structure CompiledWrite where
  statement : Sql.Statement
  params : List Value

def unknownColumn {α : Type} (e : Entity) (member : String) : Except Error α :=
  Error.raise (.member e.name member (.notColumn e.table))

/-! ### Inserting -/

def isIncluded (includes : List String) (member : String) : Bool :=
  includes.isEmpty || includes.any fun name => Text.sameName name member

/-- The columns and values of a row: those that are not null, that are asked for and that have a
column. -/
def insertColumns (e : Entity) (includes : List String) :
    Row → Except Error (List (String × Value))
  | [] => .ok []
  | (member, v) :: rest =>
    if v.isNull || !isIncluded includes member then insertColumns e includes rest
    else
      match e.property? member with
      | none => unknownColumn e member
      | some p => do
        let others ← insertColumns e includes rest
        return if p.ignored then others else (p.column, v) :: others

def insert (e : Entity) (row : Row) (includes : List String) : Except Error CompiledWrite := do
  let columns ← insertColumns e includes row
  if columns.isEmpty then Error.raise (.usage (.nothingToInsert e.name))
  else
    return {
      statement := .insert {
        table := tableOf e
        columns := columns.map Prod.fst
        values := (List.range columns.length).map .param }
      params := columns.map Prod.snd }

/-! ### The filter of a write -/

/-- The layout of a single table without an alias. -/
def bareLayout (e : Entity) : Layout := ⟨.ofRoot e.id, .bare, []⟩

/-- Every condition must be on the table itself. -/
def checkConditions (s : Schema) (e : Entity) (g : JoinGraph) :
    List Condition → Except Error Unit
  | [] => .ok ()
  | c :: rest => do
    let (g, found) := Member.resolve s g c.member
    let column ← found
    if column.scope ≠ 0 then Error.raise (.feature (.beyondTable c.member e.table))
    else checkConditions s e g rest

def writeFilterExpr (s : Schema) (e : Entity) (f : Filter) : Compile (Option Expr) := do
  resolved (checkConditions s e (.ofRoot e.id) f.conditions)
  filterExpr s f (bareLayout e)

/-! ### Updating -/

def arithmeticOp : Arithmetic → Sql.BinaryOp
  | .add => .add
  | .subtract => .sub
  | .multiply => .mul
  | .divide => .div

/-- The test of one key against the row's value for it. -/
def keyCondition (e : Entity) (row : OrderedMap Write) (key : Property) : Compile Expr :=
  match OrderedMap.named? row key.name with
  | some (.set v) =>
    if v.isNull then resolved (Error.raise (.usage (.keyWithoutValue key.name e.name)))
    else do return .equal (.qualified "" key.column) (← param v)
  | _ => resolved (Error.raise (.usage (.keyWithoutValue key.name e.name)))

def keysExpr (e : Entity) (row : OrderedMap Write) : Compile (Option Expr) := do
  let keys ← e.keys.mapM (keyCondition e row)
  if keys.isEmpty then resolved (Error.raise (.usage (.noKey e.name)))
  else return Expr.allOf? keys

/-- The value that a write assigns. -/
def writeValue (e : Entity) : Write → Compile Expr
  | .set v => if v.isNull then pure .null else param v
  | .arithmetic member operator v => do
    return .binary (.qualified "" (e.columnOf member)) (arithmeticOp operator) (← param v)

/-- The assignments of the members that the row has. Keys that rows are matched by are not
assigned. -/
def assignmentsOf (e : Entity) (row : OrderedMap Write) (byKey : Bool) :
    List String → Compile (List Sql.Assignment)
  | [] => pure []
  | member :: rest =>
    match OrderedMap.named? row member with
    | none => assignmentsOf e row byKey rest
    | some write =>
      match e.property? member with
      | none => resolved (unknownColumn e member)
      | some p =>
        if p.ignored || byKey && p.key then assignmentsOf e row byKey rest
        else do
          let value ← writeValue e write
          return ⟨p.column, value⟩ :: (← assignmentsOf e row byKey rest)

def updateStatement (s : Schema) (e : Entity) (row : OrderedMap Write) (f : Filter)
    (members : List String) : Compile Sql.Update := do
  let filter ← if f.isEmpty then keysExpr e row else writeFilterExpr s e f
  let assignments ← assignmentsOf e row f.isEmpty members
  return ⟨tableOf e, assignments, filter⟩

/-- The update of one row, matched by its key unless there is a filter. A row that assigns
nothing has none. -/
def update (s : Schema) (e : Entity) (row : OrderedMap Write) (f : Filter)
    (members : List String) : Except Error (Option CompiledWrite) := do
  let (update, n) ← (updateStatement s e row f members).run {}
  return if update.assignments.isEmpty then none else some ⟨.update update, n.params⟩

/-! ### Deleting -/

def delete (s : Schema) (e : Entity) (f : Filter) : Except Error CompiledWrite := do
  let (filter, n) ← (writeFilterExpr s e f).run {}
  return ⟨.delete ⟨tableOf e, filter⟩, n.params⟩

end EntityQuery.Plan
