import EntityQuery.Text.Case

/-! Maps from names that keep the order in which the names came first.

A map is the list of its entries. Putting a name that is present replaces its value where it
stands; a new name goes to the end. -/
namespace EntityQuery

abbrev OrderedMap (α : Type u) := List (String × α)

namespace OrderedMap
variable {α : Type u}

def keys (m : OrderedMap α) : List String := m.map Prod.fst

/-- The value under exactly this name. -/
def get? : OrderedMap α → String → Option α
  | [], _ => none
  | (k, v) :: rest, key => if k = key then some v else get? rest key

/-- The first value under the name up to ASCII case. -/
def getFold? : OrderedMap α → String → Option α
  | [], _ => none
  | (k, v) :: rest, key => if Text.sameName k key then some v else getFold? rest key

/-- The value under exactly this name, and failing that the first one up to ASCII case. -/
def named? (m : OrderedMap α) (key : String) : Option α := (get? m key).or (getFold? m key)

def put : OrderedMap α → String → α → OrderedMap α
  | [], key, value => [(key, value)]
  | (k, v) :: rest, key, value =>
    if k = key then (k, value) :: rest else (k, v) :: put rest key value

/-- Puts unless the name is present. -/
def putNew (m : OrderedMap α) (key : String) (value : α) : OrderedMap α :=
  if (get? m key).isSome then m else m ++ [(key, value)]

/-- The entries put one after another. -/
def ofPairs (pairs : List (String × α)) : OrderedMap α :=
  pairs.foldl (fun m entry => put m entry.1 entry.2) []

/-- The first entry up to ASCII case, taken out of the map. -/
def takeFold? : OrderedMap α → String → Option (α × OrderedMap α)
  | [], _ => none
  | (k, v) :: rest, key =>
    if Text.sameName k key then some (v, rest)
    else (takeFold? rest key).map fun (found, left) => (found, (k, v) :: left)

/-! ### Reading after putting -/

theorem get?_put (m : OrderedMap α) (key other : String) (value : α) :
    get? (put m key value) other = if key = other then some value else get? m other := by
  induction m with
  | nil => simp [put, get?]
  | cons entry rest ih => grind [put, get?]

theorem keys_put (m : OrderedMap α) (key : String) (value : α) :
    keys (put m key value) = if key ∈ keys m then keys m else keys m ++ [key] := by
  induction m with
  | nil => simp [put, keys]
  | cons entry rest ih => grind [put, keys]

theorem nodup_keys_put {m : OrderedMap α} (h : (keys m).Nodup) (key : String) (value : α) :
    (keys (put m key value)).Nodup := by
  rw [keys_put]
  split
  · exact h
  · next absent => exact List.nodup_append.2 ⟨h, by simp, by grind⟩

end OrderedMap
end EntityQuery
