import EntityQuery.Proofs.Sql.Reader
import EntityQuery.Query.Filter

/-! A reader of conditions.

What is read are the conditions that filters compile to: tests, put together by AND and OR, where an
operand that is such a junction itself stands in parentheses. A select in them shows one expression
and has no groups. A condition and the selects in it contain each other, so their readers are given
those of one depth less (`Readers.ofDepth`), and a text is never nested deeper than it is long. -/
namespace EntityQuery.Sql

/-- The readers of what contains itself. -/
structure Readers where
  condition : Reader Expr
  select : Reader Select

namespace Reader

/-! ### Terms -/

/-- What stands behind a word. -/
inductive Opening where
  | name | select | argument

def Opening.text : Opening → String
  | .name => "."
  | .select => " ("
  | .argument => "("

def openings : List (String × Opening) := labelled Opening.text [.name, .select, .argument]

theorem choose_opening (o : Opening) (more : List Char) :
    choose openings (o.text.toList ++ more) = some (some o, more) :=
  choose_labelled (by decide +kernel) (by cases o <;> simp) more

/-- A column, under an alias or under none. -/
def column (d : Dialect) : Reader Expr := do
  if (← next) = some d.quote then return .column none (← name d)
  else
    let table ← word
    skip "."
    return .column (some table) (← name d)

/-- What begins with a word, by what stands behind it: a column under an alias, a test for rows, or
a function. -/
def opened (d : Dialect) (inner : Readers) (w : String) : Option Opening → Reader Expr
  | none => failure
  | some .name => return .column (some w) (← name d)
  | some .select => do
    if w = "EXISTS" then
      let s ← inner.select
      skip ")"
      return .hasRow s
    else failure
  | some .argument => do
    if (← next).any Char.isDigit then
      skip "0)"
      if w = "COUNT" then return .countAll else failure
    else
      let argument ← column d
      skip ")"
      return .call w [argument]

def worded (d : Dialect) (inner : Readers) : Reader Expr := do
  let w ← word
  opened d inner w (← choose openings)

/-- What an operator stands behind. -/
def term (d : Dialect) (inner : Readers) : Reader Expr := do
  match ← next with
  | none => failure
  | some c =>
    if c = '\x7b' then return .param (← placeholder)
    else if c.isDigit then return .literal (← number)
    else if c = d.quote then return .column none (← name d)
    else worded d inner

/-! ### Tests -/

/-- What stands behind the column of a test. -/
inductive Operator where
  | binary (op : BinaryOp)
  | isNull (negate : Bool)
  | between
  | within (negate : Bool)

def Operator.text : Operator → String
  | .binary op => s!" {op.symbol} "
  | .isNull negate => if negate then " IS NOT NULL" else " IS NULL"
  | .between => " BETWEEN "
  | .within negate => inText negate

def operators : List (String × Operator) :=
  labelled Operator.text (
    [BinaryOp.eq, .ne, .gt, .ge, .lt, .le, .like, .add, .sub, .mul, .div].map .binary ++
      [.isNull false, .isNull true, .between, .within false, .within true])

theorem choose_operator (o : Operator) (more : List Char) :
    choose operators (o.text.toList ++ more) = some (some o, more) := by
  apply choose_labelled (by decide +kernel)
  cases o with
  | binary op => cases op <;> simp
  | isNull negate | within negate => cases negate <;> simp
  | between => simp

/-- The parameters of a list. -/
def params : Reader (List Expr) := do
  if (← next) = some '\x7b' then separated ", " (Expr.param <$> placeholder) else pure []

/-- A test of the term, by what the operator behind it takes. -/
def tested (d : Dialect) (inner : Readers) (e : Expr) : Option Operator → Reader Expr
  | none => return e
  | some (.binary op) => return .binary e op (← term d inner)
  | some (.isNull negate) => return .isNull e negate
  | some .between => do
    let low ← term d inner
    skip " AND "
    return .between e low (← term d inner)
  | some (.within negate) => do
    if (← next) = some 'S' then
      let s ← inner.select
      skip ")"
      return .inSelect e s negate
    else
      let list ← params
      skip ")"
      return .inList e list negate

/-- A term by itself or with an operator behind it. -/
def test (d : Dialect) (inner : Readers) : Reader Expr := do
  let e ← term d inner
  tested d inner e (← choose operators)

/-! ### Conditions -/

/-- The text between the operands of a junction. -/
def junctionText : Combinator → String
  | .and => " AND "
  | .or => " OR "

def junctions : List (String × Combinator) := labelled junctionText [.and, .or]

theorem choose_junction (k : Combinator) (more : List Char) :
    choose junctions ((junctionText k).toList ++ more) = some (some k, more) :=
  choose_labelled (by decide +kernel) (by cases k <;> simp) more

/-- An operand of a junction, a test or a junction in parentheses. -/
def operand (d : Dialect) (inner : Readers) : Reader Expr := do
  if (← next) = some '(' then
    skip "("
    let e ← inner.condition
    skip ")"
    return e
  else test d inner

end Reader

/-- Operands under AND or OR. -/
def Expr.junction : Combinator → List Expr → Expr
  | .and, es => .and es
  | .or, es => .or es

namespace Reader

def condition (d : Dialect) (inner : Readers) : Reader Expr := do
  let e ← operand d inner
  match ← choose junctions with
  | none => return e
  | some k => return .junction k (e :: (← separated (junctionText k) (operand d inner)))

/-! ### Selects -/

def tableName (d : Dialect) : Reader TableName := do
  let first ← name d
  match ← behind "." (name d) with
  | some second => return ⟨some first, second⟩
  | none => return ⟨none, first⟩

def source (d : Dialect) (inner : Readers) : Reader Source := do
  if (← next) = some '(' then
    skip "("
    let s ← inner.select
    skip ") "
    return .derived s (← word)
  else
    let t ← tableName d
    skip " "
    return .table t (some (← word))

def item (d : Dialect) (inner : Readers) : Reader Item := do
  let e ← term d inner
  return .expr e (← behind " AS " (name d))

def joinKinds : List (String × JoinKind) :=
  labelled (fun kind => " " ++ joinText kind) [.inner, .left]

theorem choose_joinKind (kind : JoinKind) (more : List Char) :
    choose joinKinds ((" " ++ joinText kind).toList ++ more) = some (some kind, more) :=
  choose_labelled (by decide +kernel) (by cases kind <;> simp) more

def join (d : Dialect) (inner : Readers) : Reader Join := do
  match ← choose joinKinds with
  | none => failure
  | some kind =>
    let source ← source d inner
    skip " ON "
    return ⟨kind, source, ← inner.condition⟩

def directions : List (String × Direction) := labelled directionText [.ascending, .descending]

theorem choose_direction (direction : Direction) (more : List Char) :
    choose directions ((directionText direction).toList ++ more) = some (some direction, more) :=
  choose_labelled (by decide +kernel) (by cases direction <;> simp) more

def order (d : Dialect) (inner : Readers) : Reader OrderBy := do
  let e ← term d inner
  match ← choose directions with
  | none => failure
  | some direction => return ⟨e, direction⟩

/-- The rows of a page, in the order of the dialect. -/
def limit : Dialect → Reader Limit
  | .mysql => do
    let offset ← number
    skip ", "
    return ⟨.ofNat offset, .ofNat (← number)⟩
  | _ => do
    let count ← number
    skip " OFFSET "
    return ⟨.ofNat (← number), .ofNat count⟩

def select (d : Dialect) (inner : Readers) : Reader Select := do
  skip "SELECT "
  let item ← item d inner
  skip " FROM "
  let source ← source d inner
  let joins ← many (join d inner)
  let filter ← behind " WHERE " inner.condition
  let orderBy ← behind " ORDER BY " (separated ", " (order d inner))
  let limit ← behind " LIMIT " (limit d)
  return { Select.of source with
    items := [item], joins, filter, orderBy := orderBy.getD [], limit }

end Reader

/-- The readers of texts that are nested less deep than a bound. -/
def Readers.ofDepth (d : Dialect) : Nat → Readers
  | 0 => ⟨failure, failure⟩
  | n + 1 =>
    let inner := Readers.ofDepth d n
    ⟨Reader.condition d inner, Reader.select d inner⟩

/-- The condition that a text is all of. -/
def Expr.read? (d : Dialect) (text : String) : Option Expr :=
  match Reader.condition d (.ofDepth d text.length) text.toList with
  | some (e, []) => some e
  | _ => none

end EntityQuery.Sql
