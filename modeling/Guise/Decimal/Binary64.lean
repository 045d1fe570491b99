/-! # Binary floating-point magnitudes

The finite magnitudes of the 64-bit binary format, as exact pairs, with the rounding to the nearest
of them (a half goes to the even neighbour), and the reading of a decimal `s * 10 ^ e` by one
multiplication or division by a rounded power of ten per 308 decimal places. -/

namespace Guise.Decimal

/-- The magnitude `mantissa * 2 ^ exponent`.  The values built here have fewer than 54 bits, an
exponent from -1074 to 971, and 53 bits whenever the exponent is above -1074. -/
structure Binary64 where
  mantissa : Nat
  exponent : Int
  deriving DecidableEq, Repr

namespace Binary64

/-- The magnitude zero. -/
def zero : Binary64 := ⟨0, -1074⟩

def isZero (x : Binary64) : Bool := x.mantissa == 0

/-- The quotient `n / d` rounded to the nearest integer, a half to the even one. -/
def roundDiv (n d : Nat) : Nat :=
  let q := n / d
  let r := n % d
  if d < 2 * r ∨ (2 * r = d ∧ q % 2 = 1) then q + 1 else q

/-- `n * 2 ^ e` and `d * 2 ^ (-e)` over a common scale: the fraction `n / d * 2 ^ e`. -/
def scaled (n d : Nat) (e : Int) : Nat × Nat :=
  (n <<< e.toNat, d <<< (-e).toNat)

/-- The magnitude nearest to `n / d`, or none when it lies beyond the largest one. -/
def nearest (n d : Nat) : Option Binary64 :=
  if n = 0 then some zero
  else
    let e := (n.log2 : Int) - d.log2 - 53
    let full := scaled n d (-e)
    let e := if full.1 / full.2 < Nat.pow 2 53 then e else e + 1
    let e := max e (-1074)
    let part := scaled n d (-e)
    let m := roundDiv part.1 part.2
    let x : Binary64 := if m = Nat.pow 2 53 then ⟨Nat.pow 2 52, e + 1⟩ else ⟨m, e⟩
    if x.exponent ≤ 971 then some x else none

/-- The magnitude nearest to a product. -/
def mul (x y : Binary64) : Option Binary64 :=
  let f := scaled (x.mantissa * y.mantissa) 1 (x.exponent + y.exponent)
  nearest f.1 f.2

/-- The magnitude nearest to a quotient. -/
def div (x y : Binary64) : Option Binary64 :=
  let f := scaled x.mantissa y.mantissa (x.exponent - y.exponent)
  nearest f.1 f.2

/-- The magnitude nearest to a power of ten. -/
def tenPow (k : Nat) : Option Binary64 := nearest (Nat.pow 10 k) 1

/-- `x * 10 ^ e`, rounded after each step; a step covers at most 308 places.  `none` when the result
is too large.  Two steps bring every 64-bit significand below the smallest magnitude, so `steps = 3`
is never used up. -/
def scaleTen (steps : Nat) (x : Binary64) (e : Int) : Option Binary64 :=
  match steps with
  | 0 => some zero
  | steps + 1 =>
    if e.natAbs ≤ 308 then
      (tenPow e.natAbs).bind fun p => if 0 ≤ e then mul x p else div x p
    else if x.isZero then some zero
    else if 0 ≤ e then none
    else (tenPow 308).bind fun p => (div x p).bind fun y => scaleTen steps y (e + 308)

/-- The magnitude read from the decimal `significand * 10 ^ e`. -/
def ofDecimal (significand : Nat) (e : Int) : Option Binary64 :=
  (nearest significand 1).bind fun x => scaleTen 3 x e

end Binary64
end Guise.Decimal
