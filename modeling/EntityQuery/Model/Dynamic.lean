import EntityQuery.Model.Descriptor

/-! Models whose shape is data: a table says, for each entity name, which arguments the
constructor takes and which fields and navigations are set. Loading keeps what was taken and what
was set, in order. -/
namespace EntityQuery

structure ArgumentSpec where
  name : String
  target : Value.Target
  optional : Bool

structure FieldSpec where
  name : String
  target : Value.Target

/-- The shape of one model. Without arguments it is constructed with none; `failure` is a
constructor that always fails. -/
structure ModelSpec where
  entity : String
  arguments : Option (List ArgumentSpec) := none
  fields : List FieldSpec := []
  navigations : List String := []
  failure : Option String := none

/-- A loaded model: a value, or a model that a navigation brought. -/
inductive DynamicModel where
  | mk (entity : String) (arguments : List (String × Option Value))
      (assigned : List (String × (Value ⊕ DynamicModel)))

namespace DynamicModel

def assign (model : DynamicModel) (member : String) (content : Value ⊕ DynamicModel) :
    DynamicModel :=
  match model with
  | .mk entity arguments assigned => .mk entity arguments (assigned ++ [(member, content)])

end DynamicModel

namespace ModelSpec

def takeArgument (spec : ArgumentSpec) : WithArguments (String × Option Value) := do
  if spec.optional then
    return (spec.name, ← WithArguments.takeOptional spec.name spec.target)
  else return (spec.name, some (← WithArguments.take spec.name spec.target))

def construct (spec : ModelSpec) : WithArguments DynamicModel := do
  match spec.failure, spec.arguments with
  | some message, _ => fun _ => Error.raise (.usage (.stated message))
  | none, none => return .mk "" [] []
  | none, some arguments => return .mk spec.entity (← arguments.mapM takeArgument) []

def setField (spec : FieldSpec) (model : DynamicModel) (v : Value) :
    Except Error DynamicModel :=
  ((v.convert spec.target).mapError Error.ofCause).map fun v => model.assign spec.name (.inl v)

/-- The descriptor of a shape, given how nested records are loaded. -/
def descriptor (spec : ModelSpec) (nested : Schema → Record → Except Error DynamicModel) :
    Descriptor DynamicModel :=
  { entity := spec.entity
    construct := spec.construct
    fields := spec.fields.map fun field => (field.name, setField field)
    navigations := spec.navigations.map fun name =>
      (name, fun model s r => (nested s r).map fun m => model.assign name (.inr m)) }

/-- Loads a record that holds at most `depth` records one inside the other. -/
def loadWithin (specs : OrderedMap ModelSpec) : Nat → Schema → Record → Except Error DynamicModel
  | depth, s, r =>
    match OrderedMap.get? specs r.entity, depth with
    | some spec, depth + 1 => (spec.descriptor (loadWithin specs depth)).load s r
    | _, _ => Error.raise (.usage (.noModel r.entity))

/-- Loads a record by the shape that stands under its entity's name. -/
def load (specs : OrderedMap ModelSpec) (s : Schema) (r : Record) : Except Error DynamicModel :=
  loadWithin specs r.height s r

end ModelSpec
end EntityQuery
