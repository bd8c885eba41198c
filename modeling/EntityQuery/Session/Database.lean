import EntityQuery.Executor.Script
import EntityQuery.Schema.Build
import EntityQuery.Sql.Render

/-! A database handle and what happens on it.

The handle knows its mapping texts and its dialect. Its schema is built when it is first needed
and then kept; a build that fails is tried again the next time. Everything that runs on the
handle changes one state: the executor, the schema and the log. -/
namespace EntityQuery

/-- What the log is told. -/
inductive Event where
  | published (entities sources : Nat)
  | asked (op : Operation)
  | rowSkipped
  | continuing (error : Error)

inductive LogLevel where
  | info | debug | warn
deriving DecidableEq, Repr

namespace Event

def level : Event → LogLevel
  | .published .. => .info
  | .asked _ => .debug
  | .rowSkipped => .debug
  | .continuing _ => .warn

def askedText : Operation → String
  | .execute sql params | .scalar sql params | .query sql params =>
    s!"exec sql={sql} params={params.length}"
  | .lastInsertId => "exec op=LastInsertId(LastInsertId)"
  | .transaction t => s!"exec op=Transaction({t.name})"

def text : Event → String
  | .published entities sources => s!"schema published; entities={entities} sources={sources}"
  | .asked op => askedText op
  | .rowSkipped => "update skipped; row assigns none of the members"
  | .continuing error => s!"batch statement failed; continuing: {error.message}"

end Event

/-- The mapping texts with the names of their sources, and the dialect of the statements. -/
structure Database where
  sources : List (String × String) := []
  dialect : Sql.Dialect := .mysql

namespace Database

/-- Adds a text, named by its place. -/
def addText (db : Database) (text : String) : Database :=
  {db with sources := db.sources ++ [(s!"mapping #{db.sources.length + 1}", text)]}

/-- Adds a file that was read, or fails as its reading did. -/
def addFile (db : Database) (file : String) (content : Except Error String) :
    Except Error Database :=
  (inContext (.usage (.cannotRead file)) content).map fun text =>
    {db with sources := db.sources ++ [(file, text)]}

/-- What runs on a handle change. -/
structure State where
  script : Script := {}
  schema : Option Schema := none
  log : List Event := []

end Database

/-- A run on a database handle. What it did stays done when it fails. -/
abbrev Run := ExceptT Error (StateM Database.State)

namespace Run
variable {α : Type}

def log (event : Event) : Run Unit := modify fun st => {st with log := st.log ++ [event]}

/-- A step that only computes. -/
def pureStep (step : Except Error α) : Run α := ExceptT.mk (pure step)

def onScript (step : Script → Except Error α × Script) : Run α :=
  ExceptT.mk fun st =>
    let (result, script) := step st.script
    (result, {st with script})

def connect : Run Unit := onScript Script.connect

/-- Sends an operation to the executor. -/
def send (op : Operation) : Run Response := do
  log (.asked op)
  onScript (·.answer op)

end Run

namespace Database

/-- The schema of a handle. -/
def schema (db : Database) : Run Schema := do
  match (← get).schema with
  | some schema => return schema
  | none =>
    let schema ← Run.pureStep (Schema.ofTexts db.sources)
    Run.log (.published schema.entities.length db.sources.length)
    modify fun st => {st with schema := some schema}
    return schema

/-- The text of a statement in the dialect of the handle. -/
def text (db : Database) (statement : Sql.Statement) : String := statement.text db.dialect

end Database
end EntityQuery
