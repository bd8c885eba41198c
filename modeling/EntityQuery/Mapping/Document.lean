/-! Mapping documents: which entities there are, the tables they live in, and how one leads to
another. A document is a description only; what it must satisfy is checked when a schema is built
from it. -/
namespace EntityQuery

/-- What a join does with a row that has no match: drop it, or keep it with nulls. -/
inductive JoinKind where
  | inner | left
deriving DecidableEq, Repr, Inhabited

namespace Mapping

/-- A property; its column is named like itself unless said otherwise. -/
structure PropertyDef where
  name : String
  column : Option String := none
  ignored : Bool := false
  constructor : Option String := none
  sequence : Bool := false
deriving DecidableEq, Repr, Inhabited

/-- A property of the declaring entity that equals one of the target. -/
structure KeyPairDef where
  source : String := ""
  target : String := ""
deriving DecidableEq, Repr, Inhabited

structure NavigationDef where
  name : String := ""
  target : String := ""
  mode : JoinKind := .inner
  keys : List KeyPairDef := []
deriving DecidableEq, Repr, Inhabited

structure EntityDef where
  name : String := ""
  table : Option String := none
  schema : Option String := none
  base : Option String := none
  keys : List PropertyDef := []
  properties : List PropertyDef := []
  navigations : List NavigationDef := []
deriving DecidableEq, Repr, Inhabited

structure Document where
  entities : List EntityDef := []
deriving DecidableEq, Repr, Inhabited

end Mapping
end EntityQuery
