import EntityQuery.Schema.Fault
import EntityQuery.Value

/-! Errors of the library: a cause, and the context that was put around it.

Every cause is a value that says what went wrong; its wording is in one function beside the
type. An error is shown with its context first, the outermost link in front, and its kind is the
kind of that link. -/
namespace EntityQuery

/-- Why a member path names no column. -/
inductive MemberFault where
  | nestedAggregate
  | emptySegment
  | notNavigation (segment entity : String)
  | notMapped (leaf : String)
  | isNavigation (leaf : String)
  | notGrouped
  | joinKeyNotGrouped (key : String)
  | notColumn (table : String)
  | stated (reason : String)
deriving DecidableEq, Repr

def MemberFault.message : MemberFault → String
  | .nestedAggregate => "nested aggregates are not supported"
  | .emptySegment => "empty path segment"
  | .notNavigation segment entity => s!"`{segment}` is not a navigation of `{entity}`"
  | .notMapped leaf => s!"`{leaf}` is not mapped to a column"
  | .isNavigation leaf => s!"`{leaf}` is a navigation, not a column"
  | .notGrouped => "neither grouped nor aggregated"
  | .joinKeyNotGrouped key =>
    s!"neither grouped nor aggregated, and join key `{key}` is not grouped"
  | .notColumn table => s!"not a column of `{table}`"
  | .stated reason => reason

/-- A comparison whose operand has the wrong number of values. -/
inductive OperatorFault where
  | noValue (comparison member : String)
  | notTwoValues (member : String) (count : Nat)
  | stated (message : String)
deriving DecidableEq, Repr

def OperatorFault.message : OperatorFault → String
  | .noValue comparison member => s!"{comparison} on `{member}` requires a value"
  | .notTwoValues member count => s!"Between on `{member}` takes exactly two values, got {count}"
  | .stated message => message

/-- A request for something that is not done. -/
inductive FeatureFault where
  | subqueryMembers (entity : String) (count : Nat)
  | groupedSubquery (entity : String)
  | beyondTable (member table : String)
  | stated (message : String)
deriving DecidableEq, Repr

def FeatureFault.message : FeatureFault → String
  | .subqueryMembers entity count =>
    s!"a sub-query on `{entity}` must project exactly one member, got {count}"
  | .groupedSubquery entity => s!"grouped sub-query on `{entity}`"
  | .beyondTable member table => s!"filter member `{member}` reaches beyond table `{table}`"
  | .stated message => message

/-- An answer, or a text to bind, that does not fit what it answers. -/
inductive ResultFault where
  | otherShape (wanted found : String)
  | notRowCount (found : Value.Kind)
  | noParameter (placeholder : String) (supplied : Nat)
  | stated (message : String)
deriving DecidableEq, Repr

def ResultFault.message : ResultFault → String
  | .otherShape wanted found => s!"expected {wanted}, got {found}"
  | .notRowCount found => s!"expected a row count, got {found.name}"
  | .noParameter placeholder supplied =>
    s!"placeholder {placeholder} has no parameter ({supplied} supplied)"
  | .stated message => message

/-- Misuse that belongs to no other kind, and the context links of the library itself. -/
inductive UsageFault where
  | nothingToInsert (entity : String)
  | keyWithoutValue (key entity : String)
  | noKey (entity : String)
  | noMembers (entity : String)
  | constructing (entity : String)
  | argument (name : String)
  | loading (entity member : String)
  | cannotRead (file : String)
  | noModel (entity : String)
  | stated (message : String)
deriving DecidableEq, Repr

def UsageFault.message : UsageFault → String
  | .nothingToInsert entity => s!"nothing to insert into `{entity}`"
  | .keyWithoutValue key entity => s!"row has no value for key `{key}` of `{entity}`"
  | .noKey entity => s!"`{entity}` has no key to match rows by"
  | .noMembers entity => s!"update of `{entity}` names no members"
  | .constructing entity => s!"constructing `{entity}`"
  | .argument name => s!"constructor argument `{name}`"
  | .loading entity member => s!"loading `{entity}.{member}`"
  | .cannotRead file => s!"cannot read `{file}`"
  | .noModel entity => s!"no model for `{entity}`"
  | .stated message => message

/-- One link of an error. -/
inductive Cause where
  | mapping (fault : Schema.Fault)
  | member (entity path : String) (fault : MemberFault)
  | operator (fault : OperatorFault)
  | feature (fault : FeatureFault)
  | conversion (source : Value.Kind) (target : String)
  | result (fault : ResultFault)
  | duplicateKey (message : String)
  /-- A failure that the database driver reports, with what lies under it. -/
  | driver (chain : List String)
  | usage (fault : UsageFault)
  | identifier (fault : Uuid.Fault)
  /-- A failure of the surroundings, with what lies under it; only its first text is shown. -/
  | foreign (chain : List String)
deriving DecidableEq, Repr

/-- What callers can tell errors apart by. -/
inductive ErrorKind where
  | driver | duplicateKey | mapping | result | conversion | member | feature | operator | other
deriving DecidableEq, Repr

namespace Cause

def message : Cause → String
  | .mapping fault => s!"invalid mapping: {fault.message}"
  | .member entity path fault =>
    s!"cannot resolve member `{path}` on `{entity}`: {fault.message}"
  | .operator fault => s!"unsupported operator: {fault.message}"
  | .feature fault => s!"unsupported feature: {fault.message}"
  | .conversion source target => s!"cannot convert {source.name} to {target}"
  | .result fault => s!"invalid result: {fault.message}"
  | .duplicateKey message => s!"duplicate key: {message}"
  | .driver chain => ": ".intercalate chain
  | .usage fault => fault.message
  | .identifier fault => fault.message
  | .foreign chain => chain.headD ""

def kind : Cause → ErrorKind
  | .mapping _ => .mapping
  | .member .. => .member
  | .operator _ => .operator
  | .feature _ => .feature
  | .conversion .. => .conversion
  | .result _ => .result
  | .duplicateKey _ => .duplicateKey
  | .driver _ => .driver
  | .usage _ | .identifier _ | .foreign _ => .other

/-- The texts that lie under a cause. A driver's failure has its own full text on top. -/
def sources : Cause → List String
  | .driver chain => ": ".intercalate chain :: chain
  | .foreign chain => chain
  | .identifier fault => [fault.message]
  | _ => []

end Cause

/-- A cause with its context: `outer` is the link that was added last, and `inner` holds those
before it, back to the cause itself. -/
structure Error where
  outer : Cause
  inner : List Cause
deriving DecidableEq, Repr

namespace Error

def ofCause (cause : Cause) : Error := ⟨cause, []⟩

instance : Coe Cause Error := ⟨ofCause⟩

/-- The step that fails for this cause. -/
def raise {α : Type} (cause : Cause) : Except Error α := .error (ofCause cause)

/-- Puts a link around an error. -/
def context (error : Error) (cause : Cause) : Error := ⟨cause, error.outer :: error.inner⟩

def links (error : Error) : List Cause := error.outer :: error.inner

def message (error : Error) : String := ": ".intercalate (error.links.map Cause.message)

def kind (error : Error) : ErrorKind := error.outer.kind

def sources (error : Error) : List String := error.outer.sources

end Error

/-- The error of a fallible step, with a link around it. -/
def inContext {α : Type} (cause : Cause) : Except Error α → Except Error α
  | .ok a => .ok a
  | .error error => .error (error.context cause)

end EntityQuery
