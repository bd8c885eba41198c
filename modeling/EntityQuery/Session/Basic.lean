import EntityQuery.Plan.Select
import EntityQuery.Plan.Write
import EntityQuery.Record.OfRow
import EntityQuery.Session.Database

/-! Sessions: requests run in order on one connection.

A session knows whether a transaction is open, which is so after the executor accepted a start
and until it accepts a commit or a rollback. A paged query whose total is not known is counted
before it is fetched. A batch handles its rows in order: inside a transaction the first row that
fails ends it, outside one the failure is noted and the rest goes on. -/
namespace EntityQuery

structure Session where
  inTransaction : Bool := false
deriving DecidableEq, Repr

/-- Makes a model from a record. -/
abbrev Loader (μ : Type) := Schema → Record → Except Error μ

/-- Records are models of themselves. -/
def Loader.record : Loader Record := fun _ r => .ok r

/-- A run on a session. What it made of the session stays so when it fails. -/
abbrev SessionRun := ExceptT Error (StateT Session (StateM Database.State))

/-- What a batch did: how many rows the statements that succeeded touched, and one error for each
row that failed, in order. The count has 64 bits, and a sum beyond them wraps. -/
structure BatchReport where
  count : UInt64 := 0
  failures : List Error := []

def BatchReport.isComplete (o : BatchReport) : Bool := o.failures.isEmpty

namespace Session
variable {μ : Type}

/-- A session on a fresh connection. -/
def connect : Run Session := do
  Run.connect
  return {}

/-! ### Transactions -/

/-- Runs what knows nothing of the session. -/
def perform {α : Type} (step : Run α) : SessionRun α := ExceptT.mk (StateT.lift step.run)

/-- The session hears of a step only once the executor accepted it. -/
def transact (t : Transaction) (inTransaction : Bool) : SessionRun Unit := do
  let _ ← perform (Run.send (.transaction t))
  modify fun session => {session with inTransaction}

def start : SessionRun Unit := transact .start true

def commit : SessionRun Unit := transact .commit false

def rollback : SessionRun Unit := transact .rollback false

/-! ### Reading -/

def scalar (sql : String) (params : List Value) : Run Value := do
  let response ← Run.send (.scalar sql params)
  Run.pureStep response.toScalar

/-- A count that an executor reports. -/
def countOf (v : Value) : Except Error UInt64 :=
  match v.integer? with
  | some n =>
    if 0 ≤ n.toInt then .ok (UInt64.ofNat n.toInt.toNat)
    else Error.raise (.result (.notRowCount v.kind))
  | none => Error.raise (.result (.notRowCount v.kind))

/-- The page to fetch with its total, counted when it is not known. -/
def resolvePage (db : Database) (plan : Plan.CompiledQuery) (p : Paging) : Run Paging := do
  match p.total with
  | some total => return p.resolve total
  | none =>
    let v ← scalar (db.text (.select plan.count)) plan.params
    let total ← Run.pureStep (countOf v)
    return p.resolve total

/-- The models of a query's rows, and its page as fetched. -/
def fetch (db : Database) (load : Loader μ) (q : Query) : Run (List μ × Option Paging) := do
  let s ← db.schema
  let plan ← Run.pureStep (Plan.select s q)
  let paging ← q.paging.mapM (resolvePage db plan)
  let plan := (paging.map plan.page).getD plan
  let response ← Run.send (.query (db.text (.select plan.select)) plan.params)
  let rows ← Run.pureStep (response.toRows >>= RowStream.collect)
  let records := plan.layout.graph.records s plan.layout.names rows
  let models ← Run.pureStep (records.mapM (load s))
  return (models, paging)

def all (db : Database) (load : Loader μ) (q : Query) : Run (List μ) :=
  Prod.fst <$> fetch db load q

def count (db : Database) (entity : String) (f : Filter) (includes : List String) :
    Run UInt64 := do
  let s ← db.schema
  let (select, params) ← Run.pureStep (Plan.count s entity f includes)
  let v ← scalar (db.text (.select select)) params
  Run.pureStep (countOf v)

def existsRow (db : Database) (entity : String) (f : Filter) : Run Bool := do
  let s ← db.schema
  let (select, params) ← Run.pureStep (Plan.existence s entity f)
  let v ← scalar (db.text (.select select)) params
  return !v.isNull

/-! ### Writing -/

def write (db : Database) (plan : Plan.CompiledWrite) : Run UInt64 := do
  let response ← Run.send (.execute (db.text plan.statement) plan.params)
  Run.pureStep response.toCount

/-- The result of a step, whose failure the run outlives. -/
def attempt {α : Type} (step : Run α) : StateM Database.State (Except Error α) := step.run

/-- Handles the rows of a batch one after another. A row is replaced by what its step makes of
it. -/
def batch {ρ : Type} (session : Session) (step : ρ → Run (UInt64 × ρ)) :
    BatchReport → List ρ → StateM Database.State (List ρ × Except Error BatchReport)
  | outcome, [] => pure ([], .ok outcome)
  | outcome, row :: rest => do
    match ← attempt (step row) with
    | .ok (touched, row) =>
      let outcome := {outcome with count := outcome.count + touched}
      let (rows, result) ← batch session step outcome rest
      return (row :: rows, result)
    | .error error =>
      if session.inTransaction then return (row :: rest, .error error)
      else
        let _ ← attempt (Run.log (.continuing error))
        let outcome := {outcome with failures := outcome.failures ++ [error]}
        let (rows, result) ← batch session step outcome rest
        return (row :: rows, result)

/-- Inserts one row, which then has the key that the database gave it. -/
def insertRow (db : Database) (e : Entity) (includes : List String) (row : Row) :
    Run (UInt64 × Row) := do
  let plan ← Run.pureStep (Plan.insert e row includes)
  let touched ← write db plan
  match e.sequence? with
  | some p =>
    if touched = 0 then return (touched, row)
    else
      let response ← Run.send .lastInsertId
      let id ← Run.pureStep response.toScalar
      return (touched, OrderedMap.put row p.name id)
  | none => return (touched, row)

/-- The schema and the entity of a batch. -/
def batchEntity (db : Database) (entity : String) : Run (Schema × Entity) := do
  let s ← db.schema
  let e ← Run.pureStep (Plan.entityNamed s entity)
  return (s, e)

/-- Inserts rows, and returns them with the keys that were generated. -/
def insertRows (db : Database) (session : Session) (entity : String) (rows : List Row)
    (includes : List String) : StateM Database.State (List Row × Except Error BatchReport) := do
  match ← attempt (batchEntity db entity) with
  | .error error => return (rows, .error error)
  | .ok (_, e) => batch session (insertRow db e includes) {} rows

/-- Updates by one row. A row that assigns nothing sends nothing. -/
def updateRow (db : Database) (s : Schema) (e : Entity) (f : Filter) (members : List String)
    (row : OrderedMap Write) : Run (UInt64 × OrderedMap Write) := do
  match ← Run.pureStep (Plan.update s e row f members) with
  | some plan => return (← write db plan, row)
  | none =>
    Run.log .rowSkipped
    return (0, row)

def updateRows (db : Database) (session : Session) (entity : String)
    (rows : List (OrderedMap Write)) (f : Filter) (members : List String) :
    Run BatchReport := do
  let (s, e) ← batchEntity db entity
  if members.isEmpty then Run.pureStep (Error.raise (.usage (.noMembers e.name)))
  else
    let (_, result) ← batch session (updateRow db s e f members) {} rows
    Run.pureStep result

def delete (db : Database) (entity : String) (f : Filter) : Run UInt64 := do
  let (s, e) ← batchEntity db entity
  let plan ← Run.pureStep (Plan.delete s e f)
  write db plan

end Session
end EntityQuery
