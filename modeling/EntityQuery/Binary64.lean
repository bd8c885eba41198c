/-! Binary floating-point numbers of 64 bits, kept as their bits.

A number is only stored, compared bit for bit and made from exact values: `ofRatio` rounds a
quotient of natural numbers to the nearest representable value, an exact half to the even
neighbour, and `ofInt` is its case of denominator one. Nothing here uses floating-point
arithmetic, so every value evaluates in the kernel. -/
namespace EntityQuery

structure Binary64 where
  bits : UInt64
deriving DecidableEq, Repr, Inhabited

namespace Binary64

/-- The powers of two, which places and fields are measured in. -/
def twoTo (k : Nat) : Nat := Nat.pow 2 k

/-- The quotient to the nearest natural number, a half to the even one. -/
def roundHalfEven (num den : Nat) : Nat :=
  let whole := num / den
  let twice := 2 * (num % den)
  if twice < den then whole
  else if den < twice then whole + 1
  else if whole % 2 = 0 then whole else whole + 1

/-- Divides by a power of two with a signed exponent, as a quotient of natural numbers. -/
def scale (num den : Nat) : Int → Nat × Nat
  | .ofNat k => (num, den * twoTo k)
  | .negSucc k => (num * twoTo (k + 1), den)

/-- The exponent of the last place of the value: 52 below its leading bit, and no less than that
of the smallest subnormal. -/
def lastPlace (num den : Nat) : Int :=
  let guess : Int := (num.log2 : Int) - (den.log2 : Int)
  let (a, b) := scale num den guess
  let lead := if a < b then guess - 1 else guess
  max (lead - 52) (-1074)

def infinityBits : Nat := 0x7ff * twoTo 52

/-- The bits of the magnitude `num / den`. A carry out of the mantissa moves into the exponent
field by itself; past the largest value it is infinity. -/
def magnitude (num den : Nat) : Nat :=
  if num = 0 then 0
  else
    let place := lastPlace num den
    let (a, b) := scale num den place
    min ((place + 1074).toNat * twoTo 52 + roundHalfEven a b) infinityBits

def signBit (negative : Bool) : Nat := if negative then twoTo 63 else 0

/-- The value nearest to a signed quotient. -/
def ofRatio (negative : Bool) (num den : Nat) : Binary64 :=
  ⟨UInt64.ofNat (signBit negative + magnitude num den)⟩

/-- The value nearest to an integer. -/
def ofInt (n : Int) : Binary64 := ofRatio (n < 0) n.natAbs 1

/-! ### Reading the bits back -/

def isNegative (x : Binary64) : Bool := twoTo 63 ≤ x.bits.toNat

/-- The bits without the sign. -/
def absBits (x : Binary64) : Nat := x.bits.toNat % twoTo 63

def isInfinite (x : Binary64) : Bool := x.absBits == infinityBits

def isZero (x : Binary64) : Bool := x.absBits == 0

/-- Mantissa and exponent of a finite magnitude `m * 2 ^ q`. -/
def parts (x : Binary64) : Nat × Int :=
  let field : Nat := x.absBits / twoTo 52
  let fraction : Nat := x.absBits % twoTo 52
  if field = 0 then (fraction, -1074) else (fraction + twoTo 52, (field : Int) - 1075)

/-- A finite magnitude as a quotient. -/
def toRatio (x : Binary64) : Nat × Nat :=
  let (m, q) := x.parts
  scale m 1 (-q)

def mul (x y : Binary64) : Binary64 :=
  let (a, b) := x.toRatio
  let (c, d) := y.toRatio
  ofRatio (x.isNegative != y.isNegative) (a * c) (b * d)

def div (x y : Binary64) : Binary64 :=
  let (a, b) := x.toRatio
  let (c, d) := y.toRatio
  ofRatio (x.isNegative != y.isNegative) (a * d) (b * c)

def neg (x : Binary64) : Binary64 := ⟨x.bits ^^^ 0x8000000000000000⟩

end Binary64
end EntityQuery
