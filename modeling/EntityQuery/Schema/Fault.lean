import EntityQuery.Mapping.Fault

/-! Why mapping documents make no schema, and why a name finds no entity in one. -/
namespace EntityQuery.Schema

inductive Fault where
  | unreadable (fault : Mapping.Fault)
  | unparsed (source : String)
  | entityTwice (entity first second : String)
  | unknownBase (entity base : String)
  | cyclicBase (entity : String)
  | propertyTwice (property entity : String)
  | unknownTarget (entity navigation target : String)
  | noKeyPairs (entity navigation : String)
  | inheritedSource (entity navigation source owner : String)
  | unknownSource (entity navigation source : String)
  | unknownTargetProperty (entity navigation target property : String)
  | memberTwice (member entity : String)
  | keyCount (entity : String) (count : Nat) (base : String) (baseCount : Nat)
  | unknownEntity (name : String)
  | stated (message : String)
deriving DecidableEq, Repr

def Fault.message : Fault → String
  | .unreadable fault => fault.message
  | .unparsed source => s!"cannot parse `{source}`"
  | .entityTwice entity first second =>
    s!"entity `{entity}` is declared in both `{first}` and `{second}`"
  | .unknownBase entity base => s!"entity `{entity}` inherits unknown entity `{base}`"
  | .cyclicBase entity => s!"entity `{entity}` inherits from itself"
  | .propertyTwice property entity =>
    s!"property `{property}` is declared twice on entity `{entity}`"
  | .unknownTarget entity navigation target =>
    s!"navigation `{entity}.{navigation}` targets unknown entity `{target}`"
  | .noKeyPairs entity navigation => s!"navigation `{entity}.{navigation}` declares no keys"
  | .inheritedSource entity navigation source owner =>
    s!"navigation `{entity}.{navigation}` is keyed on `{source}`, which is inherited from `" ++
      s!"{owner}`; declare the navigation on `{owner}`"
  | .unknownSource entity navigation source =>
    s!"navigation `{entity}.{navigation}` uses unknown source property `{source}`"
  | .unknownTargetProperty entity navigation target property =>
    s!"navigation `{entity}.{navigation}` uses unknown target property `{target}.{property}`"
  | .memberTwice member entity => s!"member `{member}` is declared twice on entity `{entity}`"
  | .keyCount entity count base baseCount =>
    s!"entity `{entity}` declares {count} key(s) but its base `{base}` has {baseCount}"
  | .unknownEntity name => s!"no mapping for entity `{name}`"
  | .stated message => message

end EntityQuery.Schema
