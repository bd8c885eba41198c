/-! A page of a result: its number, its size and, once known, how many rows there are in all.

Numbers are words of 64 bits. The offset of a page far past any table is the largest word
(`offset`), and once the total is known the page number is pulled back to the last page
(`resolve`). -/
namespace EntityQuery

/-- Pages count from one; a size of zero means all rows. -/
structure Paging where
  index : UInt64
  size : UInt64
  total : Option UInt64 := none
deriving DecidableEq, Repr

namespace Paging

/-- The page number that is fetched, never below one. -/
def fetchedIndex (p : Paging) : UInt64 := max p.index 1

/-- A product that stays at the largest word instead of wrapping. -/
def saturatingMul (a b : UInt64) : UInt64 :=
  UInt64.ofNat (min (a.toNat * b.toNat) (UInt64.size - 1))

/-- The rows in front of the page. -/
def offset (p : Paging) : UInt64 := saturatingMul p.size (p.fetchedIndex - 1)

/-- How many pages hold `total` rows. Without a limit one page holds them, if there are any. -/
def pagesOf (size total : UInt64) : UInt64 :=
  if size = 0 then (if total = 0 then 0 else 1)
  else total / size + (if total % size = 0 then 0 else 1)

def pageCount (p : Paging) : Option UInt64 := p.total.map (pagesOf p.size)

/-- Records the total and pulls the page number back within range. -/
def resolve (p : Paging) (total : UInt64) : Paging :=
  {p with total := some total, index := max (min p.index (pagesOf p.size total)) 1}

end Paging
end EntityQuery
