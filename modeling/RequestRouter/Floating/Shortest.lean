import RequestRouter.Floating.Format

/-!
# The fewest digits that read back

A decimal numeral identifies a floating-point number when it lies closer to it than
to any other: inside the interval of reals that round to the number, whose ends
belong to it when its significand is even. `RequestRouter.Floating.shortest` finds the
identifying numeral with the fewest digits and, among those, the nearest.

The numerals with a given count of digits, starting at the leading digit of the
number, form a grid. If any point of the grid lies in the interval, one of the two
neighbours of the number on the grid does. So for one digit, two digits and so on the
two neighbours are tested, in exact arithmetic on natural numbers.
-/

namespace RequestRouter

namespace Floating

/-- Which of two numerals equally far from the number is taken. -/
inductive Tie where
  /-- The greater one. -/
  | up
  /-- The one whose last digit is even. -/
  | even

/-- The number `digits * 10 ^ exponent`. -/
structure Decimal where
  /-- The digits, as a number. -/
  digits : Nat
  /-- The power of ten of the last digit. -/
  exponent : Int
deriving DecidableEq

/-- How many decimal digits `n` has. -/
def decimalLength (n : Nat) : Nat := (Nat.toDigits 10 n).length

/-- The exponent of the leading digit. -/
def Decimal.leading (d : Decimal) : Int := d.exponent + (decimalLength d.digits : Int) - 1

/-- The same number without zeros at the end of its digits. -/
def stripZeros (digits : Nat) (exponent : Int) : Decimal :=
  if h : digits = 0 then ⟨0, 0⟩
  else if digits % 10 = 0 then stripZeros (digits / 10) (exponent + 1)
  else ⟨digits, exponent⟩
termination_by digits
decreasing_by exact Nat.div_lt_self (by omega) (by decide)

/-- The interval of reals that round to a number, over a common denominator. -/
structure Interval where
  /-- The lower end. -/
  low : Nat
  /-- The number. -/
  middle : Nat
  /-- The upper end. -/
  high : Nat
  /-- The denominator of all three. -/
  denominator : Nat
  /-- Whether the ends belong to the interval. -/
  closed : Bool

/-- The interval of `significand * 2 ^ exponent`. It reaches half the gap to either
side, and the gap below may be narrow. -/
def Interval.around (significand : Nat) (exponent : Int) (narrowBelow : Bool) : Interval :=
  let below := if narrowBelow then 1 else 2
  let scale := Nat.pow 2 (exponent - 2).toNat
  { low := (4 * significand - below) * scale
    middle := 4 * significand * scale
    high := (4 * significand + 2) * scale
    denominator := Nat.pow 2 (2 - exponent).toNat
    closed := significand % 2 == 0 }

/-- The quotient `num / den` in units of `10 ^ exponent`. -/
def inUnits (num den : Nat) (exponent : Int) : Nat × Nat :=
  if 0 ≤ exponent then (num, den * Nat.pow 10 exponent.toNat)
  else (num * Nat.pow 10 (-exponent).toNat, den)

/-- Whether `digits * 10 ^ exponent` lies in the interval. -/
def Interval.holds (i : Interval) (digits : Nat) (exponent : Int) : Bool :=
  let (low, unit) := inUnits i.low i.denominator exponent
  let (high, _) := inUnits i.high i.denominator exponent
  let point := digits * unit
  if i.closed then low ≤ point && point ≤ high else low < point && point < high

/-- The exponent of the leading digit of `num / den`. -/
def leadingExponent (num den : Nat) : Int :=
  if den ≤ num then (decimalLength (num / den) : Int) - 1
  else -(decimalLength ((den - 1) / num) : Int)

/-- The nearer of the two neighbours of the number on the grid of `10 ^ exponent` that
lie in its interval. -/
def Interval.neighbour? (i : Interval) (tie : Tie) (exponent : Int) : Option Decimal :=
  let (middle, unit) := inUnits i.middle i.denominator exponent
  let lower := middle / unit
  let twice := 2 * (middle % unit)
  let lowerFirst : Bool :=
    twice < unit || (twice == unit && match tie with | .up => false | .even => lower % 2 == 0)
  let (first, second) := if lowerFirst then (lower, lower + 1) else (lower + 1, lower)
  if i.holds first exponent then some (stripZeros first exponent)
  else if i.holds second exponent then some (stripZeros second exponent)
  else none

/-- The shortest numeral in the interval. Seventeen digits identify every number of
the two formats; the exact value stands in for a search that goes further. -/
def Interval.shortest (i : Interval) (tie : Tie) : Decimal :=
  let leading := leadingExponent i.middle i.denominator
  match (List.range 17).findSome? fun (n : Nat) => i.neighbour? tie (leading - n) with
  | some d => d
  | none =>
    stripZeros (i.middle * Nat.pow 5 i.denominator.log2) (-(i.denominator.log2 : Int))

/-- The shortest numeral that identifies the finite number of `word`, without sign. -/
def shortest (f : Format) (tie : Tie) (word : Nat) : Decimal :=
  match f.classify word with
  | .finite _ significand exponent =>
    if significand = 0 then ⟨0, 0⟩
    else (Interval.around significand exponent (f.narrowBelow word)).shortest tie
  | _ => ⟨0, 0⟩

end Floating

end RequestRouter
