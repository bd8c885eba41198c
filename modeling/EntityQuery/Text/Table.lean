/-! Sets of code points, written as a list of closed ranges.

Every character class of the library is such a list, so that membership is one
scan that evaluates in the kernel as well as when compiled. -/
namespace EntityQuery.Text

/-- A set of code points: each pair holds the first and the last of a run. -/
abbrev Table := List (Nat × Nat)

def Table.has (table : Table) (c : Char) : Bool :=
  table.any fun run => run.1 ≤ c.toNat && c.toNat ≤ run.2

end EntityQuery.Text
