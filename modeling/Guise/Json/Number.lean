import Guise.Decimal.Shortest

/-! # Numbers of a document

A number written without fraction and exponent is an integer when it fits in 64 bits, with or
without sign; every other number is a 64-bit binary one.  Digits beyond a 64-bit significand count
only as decimal places. -/

namespace Guise

open Decimal

/-- A number as a document holds it. -/
inductive Number where
  | integer (value : Int)
  | real (negative : Bool) (magnitude : Binary64)
  deriving DecidableEq, Repr

namespace Number

/-- Positional from 1e-5 up to 1e16, `.0` after an integral number, a signed exponent outside. -/
def layout : Layout where
  least := -5
  limit := 16
  integral := ".0"
  plus := "+"

/-- The text of a number. -/
def text : Number → String
  | integer n => toString n
  | real negative x =>
    (if negative then "-" else "") ++ if x.isZero then "0.0" else (Shortest.of x).text layout

/-- The largest significand. -/
def largest : Nat := Nat.pow 2 64 - 1

/-- Appends digits to a significand while it fits; gives it with the digits left over. -/
def gather (significand : Nat) : List Nat → Nat × List Nat
  | [] => (significand, [])
  | d :: ds =>
    if significand * 10 + d ≤ largest then gather (significand * 10 + d) ds
    else (significand, d :: ds)

/-- A number given by its sign, its digits before and after the point, and its exponent; none when
its magnitude is too large. -/
def ofReal (negative : Bool) (whole fraction : List Nat) (exponent : Int) : Option Number :=
  let w := gather 0 whole
  let f := gather w.1 fraction
  let places : Int := (w.2.length : Int) - fraction.length + f.2.length
  (Binary64.ofDecimal f.1 (places + exponent)).map (real negative)

/-- A number given by its sign and its digits alone. -/
def ofDigits (negative : Bool) (digits : List Nat) : Option Number :=
  let n : Nat := digits.foldl (fun n d => n * 10 + d) 0
  if negative then
    if n ≠ 0 ∧ n ≤ Nat.pow 2 63 then some (integer (-n)) else ofReal true digits [] 0
  else
    if n ≤ largest then some (integer n) else ofReal false digits [] 0

end Number
end Guise
