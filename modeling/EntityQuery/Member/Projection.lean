import EntityQuery.Member.Path
import EntityQuery.Schema.Basic

/-! The members that a projection stands for.

Without members a projection shows every column of the entity and its ancestors; a member that
is a navigation shows every column of its target and the target's ancestors. A key that an
entity repeats from its base is shown once, and another property that an entity hides from its
base is shown through the base. -/
namespace EntityQuery.Member

/-- The column members of a lineage whose entities stand under the path `chain`, given the names
that nearer entities declare. Names that are not hidden stand under `front`. -/
def ownerColumns (front chain : String) :
    List String → List Property → List String × List String
  | seen, [] => (seen, [])
  | seen, p :: rest =>
    let hidden := seen.any fun name => Text.sameName name p.name
    if hidden && p.key then ownerColumns front chain seen rest
    else
      let path := if hidden then under chain p.name else under front p.name
      let (seen, paths) := ownerColumns front chain (seen ++ [p.name]) rest
      (seen, path :: paths)

def lineageColumns (front : String) (chain : String) (seen : List String) :
    List Entity → List String
  | [] => []
  | owner :: rest =>
    let (seen, paths) := ownerColumns front chain seen owner.columns
    match rest with
    | [] => paths
    | base :: _ => paths ++ lineageColumns front (under chain base.name) seen rest

/-- The members for every column of an entity that stands under a path. -/
def columnsUnder (s : Schema) (e : Entity) (front : String) : List String :=
  lineageColumns front front [] (s.lineage e)

/-- The entity that names lead to when each of them is a navigation. -/
def targetOf? (s : Schema) (e : Entity) : List String → Option Entity
  | [] => some e
  | name :: rest =>
    if (s.nearestProperty? e name).isSome then none
    else
      match s.nearestNavigation? e name with
      | none => none
      | some (_, navigation) => targetOf? s (s.entity navigation.target) rest

/-- The entity that a member leads to when it is a path of navigations. -/
def shownEntity? (s : Schema) (e : Entity) (member : String) : Option Entity :=
  if isRowCount member || (applied? member).isSome then none
  else targetOf? s e (segments member)

/-- The members that one member of a projection stands for. -/
def expandOne (s : Schema) (e : Entity) (member : String) : List String :=
  match shownEntity? s e member with
  | some target => columnsUnder s target member
  | none => [member]

/-- The members of a projection, each at its first place. -/
def expand (s : Schema) (e : Entity) (members : List String) : List String :=
  let all := if members.isEmpty then columnsUnder s e "" else members.flatMap (expandOne s e)
  all.eraseDups

end EntityQuery.Member
