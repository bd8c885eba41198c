import EntityQuery.Record
import EntityQuery.Schema.Basic
import EntityQuery.Value.Conversion

/-! How a record becomes a value of some type.

A descriptor names the entity, makes a value from the constructor arguments that the schema
declares, and then sets fields and navigations one after another. A column that is null sets
nothing, and neither does one that a constructor argument took. -/
namespace EntityQuery

/-- A step that takes constructor arguments. -/
abbrev WithArguments := StateT (OrderedMap Value) (Except Error)

namespace WithArguments

/-- Takes an argument out; one that is missing is null. -/
def takeValue (name : String) : WithArguments Value := fun args =>
  match OrderedMap.takeFold? args name with
  | some (v, rest) => .ok (v, rest)
  | none => .ok (.null, args)

def take (name : String) (t : Value.Target) : WithArguments Value := do
  let v ← takeValue name
  fun args => (inContext (.usage (.argument name))
    ((v.convert t).mapError Error.ofCause)).map (·, args)

def takeOptional (name : String) (t : Value.Target) : WithArguments (Option Value) := do
  let v ← takeValue name
  fun args => ((v.convert? t).mapError Error.ofCause).map (·, args)

end WithArguments

structure Descriptor (μ : Type) where
  entity : String
  construct : WithArguments μ
  /-- The members to set from columns. -/
  fields : List (String × (μ → Value → Except Error μ)) := []
  /-- The navigations to set from nested records. -/
  navigations : List (String × (μ → Schema → Record → Except Error μ)) := []

namespace Descriptor
variable {μ : Type}

/-- The constructor arguments of a record: the values of the columns, along the lineage, whose
properties name a parameter. -/
def arguments (s : Schema) (e : Entity) (r : Record) : OrderedMap Value :=
  let entries := (s.lineage e).flatMap fun owner => owner.columns.filterMap fun p => do
    let parameter ← p.constructor
    let v ← r.value? p.column
    return (parameter, v)
  OrderedMap.ofPairs entries

/-- The column that sets a member. A member without a column and one that the constructor took
have none; an undeclared member is its own column. -/
def fieldColumn? (s : Schema) (e : Entity) (member : String) : Option String :=
  match s.nearestProperty? e member with
  | none => some member
  | some (_, p) => if p.ignored || p.constructor.isSome then none else some p.column

/-- The value that sets a member. -/
def fieldValue? (s : Schema) (e : Entity) (r : Record) (member : String) : Option Value := do
  let column ← fieldColumn? s e member
  let v ← r.value? column
  guard (!v.isNull)
  return v

def setField (s : Schema) (e : Entity) (r : Record) (model : μ)
    (field : String × (μ → Value → Except Error μ)) : Except Error μ :=
  match fieldValue? s e r field.1 with
  | none => .ok model
  | some v => inContext (.usage (.loading e.name field.1)) (field.2 model v)

/-- Sets a navigation from its record, which is then used up. -/
def setNavigation (s : Schema) (state : μ × List (String × Record))
    (field : String × (μ → Schema → Record → Except Error μ)) :
    Except Error (μ × List (String × Record)) :=
  match OrderedMap.takeFold? state.2 field.1 with
  | none => .ok state
  | some (nested, rest) => (field.2 state.1 s nested).map (·, rest)

def load (d : Descriptor μ) (s : Schema) (r : Record) : Except Error μ := do
  let e ← (s.resolve d.entity).mapError fun fault => Cause.mapping fault
  let model ← inContext (.usage (.constructing e.name)) (d.construct.run' (arguments s e r))
  let model ← d.fields.foldlM (setField s e r) model
  let (model, _) ← d.navigations.foldlM (setNavigation s) (model, r.navigations)
  return model

end Descriptor
end EntityQuery
