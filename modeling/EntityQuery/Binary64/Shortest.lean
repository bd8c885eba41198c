import EntityQuery.Binary64

/-! The text of a binary64 number: the fewest decimal digits that read back, of those the nearest,
and of two that are equally near the even one.

A decimal reads back when it lies between the halfway points to the two neighbouring numbers,
the points themselves included exactly when the mantissa is even. For each count of digits the
only candidates are the two neighbours of the value on the decimal grid of that count; the first
count with a candidate inside wins. -/
namespace EntityQuery.Binary64

/-- A positive decimal `digits * 10 ^ exponent`. -/
structure Decimal where
  digits : Nat
  exponent : Int

def tenTo (k : Nat) : Nat := Nat.pow 10 k

/-- The quotient of `num / den` by a signed power of ten. -/
def scaleTen (num den : Nat) : Int → Nat × Nat
  | .ofNat k => (num, den * tenTo k)
  | .negSucc k => (num * tenTo (k + 1), den)

/-- How far a fraction below one stands from its first digit. -/
def leadingZeros (num den : Nat) : Nat → Nat
  | 0 => 0
  | fuel + 1 => if den ≤ num then 0 else leadingZeros (num * 10) den fuel + 1

/-- The power of ten of the first digit. -/
def leadingPlace (num den : Nat) : Int :=
  if den ≤ num then ((Nat.toDigits 10 (num / den)).length : Int) - 1
  else -(leadingZeros num den 400 : Int)

/-- The decimals that read back as one number, as bounds over a common denominator. -/
structure Interval where
  low : Nat
  high : Nat
  den : Nat
  closed : Bool

def Interval.has (i : Interval) (d : Decimal) : Bool :=
  let (a, b) := scaleTen d.digits 1 (-d.exponent)
  if i.closed then i.low * b ≤ a * i.den && a * i.den ≤ i.high * b
  else i.low * b < a * i.den && a * i.den < i.high * b

/-- Half a place below and above. Below a power of two the neighbour is twice as near. -/
def interval (x : Binary64) : Interval :=
  let (m, q) := x.parts
  let near : Bool := m == twoTo 52 && -1074 < q
  let (scaled, den) := scale 1 4 (-q)
  ⟨(4 * m - if near then 1 else 2) * scaled, (4 * m + 2) * scaled, den, m % 2 == 0⟩

/-- The neighbour of the value on the grid that reads back, the nearer if both do. -/
def onGrid (x : Binary64) (place : Int) : Option Decimal :=
  let (num, den) := x.toRatio
  let (a, b) := scaleTen num den place
  let below : Decimal := ⟨a / b, place⟩
  let above : Decimal := ⟨a / b + 1, place⟩
  let range := x.interval
  match 0 < below.digits && range.has below, range.has above with
  | true, true => some ⟨roundHalfEven a b, place⟩
  | true, false => some below
  | false, true => some above
  | false, false => none

def shortestFrom (x : Binary64) (lead : Int) : List Nat → Decimal
  | [] => ⟨0, 0⟩
  | count :: rest =>
    match x.onGrid (lead - count) with
    | some d => d
    | none => shortestFrom x lead rest

/-- Drops zeros at the end of the digits. -/
def trimZeros (d : Decimal) : Nat → Decimal
  | 0 => d
  | fuel + 1 =>
    if d.digits != 0 && d.digits % 10 == 0 then trimZeros ⟨d.digits / 10, d.exponent + 1⟩ fuel
    else d

def shortest (x : Binary64) : Decimal :=
  let (num, den) := x.toRatio
  trimZeros (shortestFrom x (leadingPlace num den) (List.range 17)) 20

/-! ### Layout -/

def zeros (n : Nat) : List Char := List.replicate n '0'

/-- An exponent with its sign. -/
def exponentText (e : Int) : List Char :=
  'e' :: (if e < 0 then '-' else '+') :: Nat.toDigits 10 e.natAbs

/-- Positional with at least one digit on either side of the point while the point stands no
more than 16 digits to the right of the first digit and no more than five to its left;
otherwise one digit before the point and an exponent. -/
def layout (d : Decimal) : List Char :=
  let digits := Nat.toDigits 10 d.digits
  let point : Int := digits.length + d.exponent
  if 0 ≤ d.exponent && point ≤ 16 then digits ++ zeros d.exponent.toNat ++ ['.', '0']
  else if 0 < point && point ≤ 16 then
    digits.take point.toNat ++ ['.'] ++ digits.drop point.toNat
  else if -5 < point && point ≤ 0 then ['0', '.'] ++ zeros (-point).toNat ++ digits
  else
    let mantissa :=
      match digits with
      | first :: second :: rest => first :: '.' :: second :: rest
      | short => short
    mantissa ++ exponentText (point - 1)

/-- The text of a finite number. -/
def text (x : Binary64) : String :=
  let magnitude := if x.isZero then ['0', '.', '0'] else layout x.shortest
  String.ofList (if x.isNegative then '-' :: magnitude else magnitude)

end EntityQuery.Binary64
