import EntityQuery.Executor.Response

/-! An executor that answers from a script.

Each operation is recorded and takes the next answer; once the script is used up, a statement
touches one row, a query brings no rows, a single value is null and a transaction step touches
nothing. A connection is opened or refused as the script says, and opened once that is used up. One
that is refused is not counted. -/
namespace EntityQuery

structure Script where
  answers : List (Except Error Response) := []
  /-- What the next connections bring: they are opened, or refused with an error. -/
  openings : List (Except Error Unit) := []
  connections : Nat := 0
  /-- The operations received, in order, failed ones included. -/
  received : List Operation := []

namespace Script

def defaultAnswer : Operation → Response
  | .execute .. => .count 1
  | .query .. => .rows ⟨[]⟩
  | .scalar .. => .scalar .null
  | .lastInsertId => .scalar .null
  | .transaction _ => .count 0

def connect (script : Script) : Except Error Unit × Script :=
  let next := {script with openings := script.openings.tail}
  match script.openings.head? with
  | some (.error error) => (.error error, next)
  | some (.ok ()) | none => (.ok (), {next with connections := next.connections + 1})

def answer (script : Script) (op : Operation) : Except Error Response × Script :=
  let script := {script with received := script.received ++ [op]}
  match script.answers with
  | answer :: rest => (answer, {script with answers := rest})
  | [] => (.ok (defaultAnswer op), script)

end Script
end EntityQuery
