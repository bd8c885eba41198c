import EntityQuery.Sql.Dialect
import EntityQuery.Text.Digit

/-! Replacing numbered placeholders by a dialect's own.

The text is scanned from left to right for braces around a run of decimal digits of any script
(`scan`), wherever they stand. Only ASCII digits that name a supplied parameter can be bound.
MySQL's placeholders have no numbers, so its parameters are listed in the order of the text, as
often as they occur; the other dialects number theirs from one and keep the list. -/
namespace EntityQuery.Sql

/-- A character that stays, or the digits of a placeholder. -/
inductive Span where
  | char (c : Char)
  | placeholder (digits : List Char)
deriving DecidableEq, Repr

/-- The digits of a placeholder whose opening brace was just taken, and the text behind it. -/
def placeholder? (cs : List Char) : Option (List Char × List Char) :=
  match cs.span Text.isDecimalDigit with
  | ([], _) => none
  | (digits, '\x7d' :: rest) => some (digits, rest)
  | _ => none

/-- The spans of a text of at most `fuel` characters. -/
def scanFrom : Nat → List Char → List Span
  | 0, _ => []
  | _, [] => []
  | fuel + 1, c :: rest =>
    if c = '\x7b' then
      match placeholder? rest with
      | some (digits, behind) => .placeholder digits :: scanFrom fuel behind
      | none => .char c :: scanFrom fuel rest
    else .char c :: scanFrom fuel rest

def scan (cs : List Char) : List Span := scanFrom cs.length cs

/-- The supplied parameter that digits name. -/
def parameterIndex? (supplied : Nat) (digits : List Char) : Option Nat :=
  (Text.readNat digits).filter (· < supplied)

/-- The placeholder of a dialect for the parameter at a position. -/
def Dialect.native : Dialect → Nat → List Char
  | .mysql, _ => ['?']
  | .postgresql, n => '$' :: (toString (n + 1)).toList
  | .sqlite, n => '?' :: (toString (n + 1)).toList

/-- A span with the position of its parameter in place of the digits. -/
def Span.resolve (supplied : Nat) : Span → Except ResultFault (Char ⊕ Nat)
  | .char c => .ok (.inl c)
  | .placeholder digits =>
    match parameterIndex? supplied digits with
    | some n => .ok (.inr n)
    | none =>
      .error (.noParameter (String.ofList ('\x7b' :: digits ++ ['\x7d'])) supplied)

/-- The text with the dialect's placeholders, and the parameters as the database takes them. -/
def Dialect.bind (d : Dialect) (sql : String) (params : List Value) :
    Except ResultFault (String × List Value) := do
  let spans ← (scan sql.toList).mapM (Span.resolve params.length)
  let text := spans.flatMap fun span =>
    match span with
    | .inl c => [c]
    | .inr n => d.native n
  let used := spans.filterMap fun span =>
    match span with
    | .inl _ => none
    | .inr n => params[n]?
  let values := match d with
    | .mysql => used
    | _ => params
  return (String.ofList text, values.map d.coerce)

end EntityQuery.Sql
