import Guise.Decimal.Binary64

/-! # The shortest decimal of a magnitude

The fewest digits that read back as the magnitude, of these the nearest.  A magnitude `m * 2 ^ e` is
what every real in an interval around it rounds to; the ends belong to the interval exactly when `m`
is even.  On the grid of decimals with `n` digits the two neighbours of the magnitude are tried, for
`n = 1, 2, …, 17`. -/

namespace Guise.Decimal

/-- The digits `digits` stand for `0.digits * 10 ^ point`. -/
structure Shortest where
  digits : List Char
  point : Int
  deriving DecidableEq, Repr

/-- Where positional notation starts and ends, and how an exponent is written. -/
structure Layout where
  /-- The smallest decimal exponent written positionally. -/
  least : Int
  /-- The first decimal exponent above the positional ones. -/
  limit : Int
  /-- What follows an integral positional number. -/
  integral : String
  /-- What stands before an exponent that is not negative. -/
  plus : String

namespace Shortest

/-- The fraction `n / d` on the grid of spacing `10 ^ g`: the point at or below it. -/
def floorOn (n d : Nat) (g : Int) : Nat :=
  (n * Nat.pow 10 (-g).toNat) / (d * Nat.pow 10 g.toNat)

/-- Whether `n / d < c * 10 ^ g`, or `≤` when `closed`. -/
def below (closed : Bool) (n d c : Nat) (g : Int) : Bool :=
  let l := n * Nat.pow 10 (-g).toNat
  let r := d * c * Nat.pow 10 g.toNat
  if closed then l ≤ r else l < r

/-- Whether `c * 10 ^ g < n / d`, or `≤` when `closed`. -/
def above (closed : Bool) (n d c : Nat) (g : Int) : Bool :=
  let l := n * Nat.pow 10 (-g).toNat
  let r := d * c * Nat.pow 10 g.toNat
  if closed then r ≤ l else r < l

/-- The least `k` from `k` on with `n / d < 10 ^ k`, looking `fuel` places far. -/
def magnitude (fuel : Nat) (n d : Nat) (k : Int) : Int :=
  match fuel with
  | 0 => k
  | fuel + 1 => if below false n d 1 k then k else magnitude fuel n d (k + 1)

/-- An interval of reals around the fraction `value / unit`, with ends `low / unit` and
`high / unit`. -/
structure Span where
  low : Nat
  value : Nat
  high : Nat
  unit : Nat
  closed : Bool

/-- The reals that round to `x`. -/
def span (x : Binary64) : Span :=
  let m := x.mantissa
  let low := if m = Nat.pow 2 52 ∧ -1074 < x.exponent then 4 * m - 1 else 4 * m - 2
  let e := x.exponent - 2
  let up (n : Nat) := n <<< e.toNat
  ⟨up low, up (4 * m), up (4 * m + 2), 1 <<< (-e).toNat, m % 2 = 0⟩

/-- Whether `c * 10 ^ g` lies in the interval. -/
def Span.holds (s : Span) (c : Nat) (g : Int) : Bool :=
  below s.closed s.low s.unit c g && above s.closed s.high s.unit c g

/-- The grid point with spacing `10 ^ g` inside the interval that is nearest to its value. -/
def Span.pick (s : Span) (g : Int) : Option Nat :=
  let c := floorOn s.value s.unit g
  let two := 2 * s.value * Nat.pow 10 (-g).toNat
  let mid := s.unit * (2 * c + 1) * Nat.pow 10 g.toNat
  match s.holds c g, s.holds (c + 1) g with
  | true, false => some c
  | false, true => some (c + 1)
  | true, true => if two < mid ∨ (two = mid ∧ c % 2 = 0) then some c else some (c + 1)
  | false, false => none

/-- The first grid, from `n` digits on, that has a point in the interval; `k` is the place of the
leading digit. -/
def Span.search (s : Span) (k : Int) (left n : Nat) : Nat × Int :=
  match left with
  | 0 => (floorOn s.value s.unit (k - n), k - n)
  | left + 1 =>
    match s.pick (k - n) with
    | some c => (c, k - n)
    | none => s.search k left (n + 1)

/-- The decimal digits of a number without the zeros at its end. -/
def significant (n : Nat) : List Char :=
  ((Nat.toDigits 10 n).reverse.dropWhile (· == '0')).reverse

/-- The shortest decimal of a magnitude other than zero. -/
def of (x : Binary64) : Shortest :=
  let s := span x
  let k := magnitude 640 s.value s.unit (-325)
  let (c, g) := s.search k 17 1
  ⟨significant c, g + (Nat.toDigits 10 c).length⟩

/-- The text of the digits in a layout. -/
def text (l : Layout) (d : Shortest) : String :=
  let n : Int := d.digits.length
  let e := d.point - 1
  if l.least ≤ e ∧ e < l.limit then
    if d.point ≤ 0 then
      String.ofList ('0' :: '.' :: List.replicate (-d.point).toNat '0' ++ d.digits)
    else if n ≤ d.point then
      String.ofList (d.digits ++ List.replicate (d.point - n).toNat '0') ++ l.integral
    else
      String.ofList (d.digits.take d.point.toNat ++ '.' :: d.digits.drop d.point.toNat)
  else
    let head := match d.digits with
      | [] => []
      | [c] => [c]
      | c :: r => c :: '.' :: r
    let sign := if e < 0 then "-" else l.plus
    String.ofList head ++ "e" ++ sign ++ toString e.natAbs

end Shortest
end Guise.Decimal
