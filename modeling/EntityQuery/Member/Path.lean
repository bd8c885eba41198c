import EntityQuery.Text.Blank
import EntityQuery.Text.Case

/-! Member paths as they are written: names with dots between them, or a function applied to such
a path, or the row count.

White space around names, around the function and around its parentheses means nothing. The
argument of a function reaches to the last parenthesis and stays on one line. -/
namespace EntityQuery.Member

/-- Whether a path is the row count. -/
def isRowCount (path : String) : Bool := Text.fold (Text.trim path) == "count(0)".toList

def isWordStart (c : Char) : Bool := c.isAlpha || c = '_'

def isWordChar (c : Char) : Bool := c.isAlphanum || c = '_'

/-- What stands before a closing parenthesis at the end of the text, if that is one line and not
nothing. -/
def argument? (cs : List Char) : Option (List Char) :=
  let body := Text.trimBack cs
  if body.getLast? = some ')' && 1 < body.length && !body.dropLast.contains '\n' then
    some body.dropLast
  else none

/-- The function and the argument of an applied path. -/
def applied? (path : String) : Option (String × String) :=
  let cs := Text.trimFront path.toList
  if (cs.head?.map isWordStart).getD false then
    match Text.trimFront (cs.dropWhile isWordChar) with
    | '(' :: rest =>
      (argument? rest).map fun argument =>
        (String.ofList (cs.takeWhile isWordChar), String.ofList argument)
    | _ => none
  else none

/-- The parts of a text between the places of a character. -/
def splitAt (separator : Char) : List Char → List (List Char)
  | [] => [[]]
  | c :: rest =>
    if c = separator then [] :: splitAt separator rest
    else
      match splitAt separator rest with
      | [] => [[c]]
      | part :: parts => (c :: part) :: parts

/-- The names of a dotted path. There is always at least one, possibly empty. -/
def segments (path : String) : List String :=
  (splitAt '.' path.toList).map fun part => String.ofList (Text.trimChars part)

/-- A dotted path under a leading one, which may be none. -/
def under (front name : String) : String := if front = "" then name else s!"{front}.{name}"

end EntityQuery.Member
