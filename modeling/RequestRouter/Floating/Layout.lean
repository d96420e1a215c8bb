import RequestRouter.Floating.Shortest

/-!
# Floating-point numbers in text

A number is written with the digits of `RequestRouter.Floating.shortest`, in one of two
ways: positionally, with at least one digit on either side of the point, or as one
digit, the other digits behind a point and the power of ten behind an `e`. Which way
is taken hangs on the exponent of the leading digit alone. The formats of this library
differ in where numbers change over, in the sign of a power of ten that is positive and
in the choice between two numerals that lie equally near.
-/

namespace RequestRouter

namespace Floating

/-- The decisions of a text format for numbers. -/
structure Layout where
  /-- The least exponent of the leading digit that is written positionally. -/
  leastPositional : Int
  /-- The greatest exponent of the leading digit that is written positionally. -/
  greatestPositional : Int
  /-- What stands before a power of ten that is not negative. -/
  powerSign : List Char
  /-- Which of two equally near numerals is written. -/
  tie : Tie

/-- Numbers shown for inspection: positional from `0.0001` on and below `1e16`. -/
def Layout.inspected : Layout := ⟨-4, 15, [], .up⟩

/-- Numbers of JSON documents: positional from `0.00001` on and below `1e+16`. -/
def Layout.document : Layout := ⟨-5, 15, ['+'], .even⟩

/-- `digits` with a point after the first `before` of them, filled up with zeros so
that the point has a digit on either side. -/
def pointed (digits : List Char) (before : Int) : List Char :=
  if before ≤ 0 then ['0', '.'] ++ List.replicate (-before).toNat '0' ++ digits
  else if before < digits.length then
    digits.take before.toNat ++ ['.'] ++ digits.drop before.toNat
  else digits ++ List.replicate (before.toNat - digits.length) '0' ++ ['.', '0']

/-- `digits` with a point after the first, if more follow, and the power of ten of the
first behind an `e`, after `powerSign` if it is not negative. -/
def powered (powerSign digits : List Char) (leading : Int) : List Char :=
  let tail := digits.drop 1
  let point := if tail.isEmpty then [] else ['.']
  let sign := if leading < 0 then [] else powerSign
  digits.take 1 ++ point ++ tail ++ ['e'] ++ sign ++ (toString leading).toList

/-- A numeral in the given format. -/
def Layout.write (layout : Layout) (d : Decimal) : List Char :=
  let digits := Nat.toDigits 10 d.digits
  if layout.leastPositional ≤ d.leading && d.leading ≤ layout.greatestPositional then
    pointed digits (d.leading + 1)
  else powered layout.powerSign digits d.leading

/-- The text of the number of `word`; a NaN has no sign. -/
def Layout.render (layout : Layout) (f : Format) (word : Nat) : String :=
  let sign (negative : Bool) : List Char := if negative then ['-'] else []
  match f.classify word with
  | .nan => "NaN"
  | .infinite negative => String.ofList (sign negative ++ ['i', 'n', 'f'])
  | .finite negative _ _ =>
    String.ofList (sign negative ++ layout.write (shortest f layout.tie word))

end Floating

/-- The number as it is shown for inspection. -/
def Binary32.inspect (x : Binary32) : String :=
  Floating.Layout.inspected.render .single x.bits.toNat

/-- The number as it is shown for inspection. -/
def Binary64.inspect (x : Binary64) : String :=
  Floating.Layout.inspected.render .double x.bits.toNat

/-- The number as a JSON document writes it. -/
def Binary64.document (x : Binary64) : String :=
  Floating.Layout.document.render .double x.bits.toNat

end RequestRouter
