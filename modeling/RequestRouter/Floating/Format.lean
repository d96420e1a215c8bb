/-!
# Binary floating point, by its bits

Numbers of the two interchange formats are kept as the words that encode them, so
that every pattern – the signed zeros, the payload of a NaN – is a value of its own
and survives being stored. What a word means is read off it exactly, as a natural
number times a power of two.

## Contents

* `RequestRouter.Floating.Format` – the widths of the two fields of a format, with
  `RequestRouter.Floating.Format.classify`, which reads a word, and
  `RequestRouter.Floating.Format.round`, which finds the word nearest to a quotient.
* `RequestRouter.Binary32` and `RequestRouter.Binary64` – the words of 32 and 64 bits.
-/

namespace RequestRouter

namespace Floating

/-- A binary interchange format: a sign bit, then the exponent, then the fraction. -/
structure Format where
  /-- The width of the fraction field. -/
  fractionBits : Nat
  /-- The width of the exponent field. -/
  exponentBits : Nat

/-- What a word encodes. -/
inductive Reading where
  /-- No number. -/
  | nan
  /-- An infinity, and whether it is the negative one. -/
  | infinite (negative : Bool)
  /-- The number `significand * 2 ^ exponent` or its negative. -/
  | finite (negative : Bool) (significand : Nat) (exponent : Int)

namespace Format

/-- The format of 32 bits. -/
def single : Format := ⟨23, 8⟩

/-- The format of 64 bits. -/
def double : Format := ⟨52, 11⟩

/-- The exponent field of infinities and NaNs. -/
def topExponent (f : Format) : Nat := Nat.pow 2 f.exponentBits - 1

/-- The fraction field of a word. -/
def fraction (f : Format) (word : Nat) : Nat := word % Nat.pow 2 f.fractionBits

/-- The exponent field of a word. -/
def exponentField (f : Format) (word : Nat) : Nat :=
  word / Nat.pow 2 f.fractionBits % Nat.pow 2 f.exponentBits

/-- Whether the sign bit of a word is set. -/
def isNegative (f : Format) (word : Nat) : Bool :=
  word / Nat.pow 2 (f.fractionBits + f.exponentBits) % 2 == 1

/-- The exponent of the least positive number, which is one unit in the last place of
every number below the least normal one. -/
def leastExponent (f : Format) : Int :=
  2 - (Nat.pow 2 (f.exponentBits - 1) : Int) - (f.fractionBits : Int)

/-- The word of positive infinity. -/
def infinity (f : Format) : Nat := f.topExponent * Nat.pow 2 f.fractionBits

/-- Reads a word. -/
def classify (f : Format) (word : Nat) : Reading :=
  let field := f.exponentField word
  let fraction := f.fraction word
  if field = f.topExponent then
    if fraction = 0 then .infinite (f.isNegative word) else .nan
  else if field = 0 then .finite (f.isNegative word) fraction f.leastExponent
  else
    .finite (f.isNegative word) (Nat.pow 2 f.fractionBits + fraction) (f.leastExponent + field - 1)

/-- Whether the gap below the number of a word is half as wide as the gap above it:
the number is a power of two, and not the least normal one. -/
def narrowBelow (f : Format) (word : Nat) : Bool :=
  f.fraction word == 0 && 1 < f.exponentField word

/-- The quotient `num / den` times `2 ^ -exponent`, as a numerator and a denominator. -/
def scaled (num den : Nat) (exponent : Int) : Nat × Nat :=
  if 0 ≤ exponent then (num, den * Nat.pow 2 exponent.toNat)
  else (num * Nat.pow 2 (-exponent).toNat, den)

/-- The integer nearest to `num / den`, the even one of two. -/
def nearestEven (num den : Nat) : Nat :=
  let quotient := num / den
  let twice := 2 * (num % den)
  if twice < den then quotient
  else if den < twice then quotient + 1
  else quotient + quotient % 2

/-- The exponent `e` with `2 ^ e ≤ num / den < 2 ^ (e + 1)`. -/
def binaryExponent (num den : Nat) : Int :=
  let guess : Int := (num.log2 : Int) - den.log2
  let (n, d) := scaled num den guess
  if d ≤ n then guess else guess - 1

/-- The word, without sign, of the number nearest to `num / den`; of two, the one with
an even significand. Beyond the greatest number that is infinity. The sum at the end
lets a significand that rounds up to the next power of two carry into the exponent. -/
def round (f : Format) (num den : Nat) : Nat :=
  if num = 0 then 0
  else
    let exponent := max f.leastExponent (binaryExponent num den - f.fractionBits)
    let (n, d) := scaled num den exponent
    let significand := nearestEven n d
    min f.infinity ((exponent - f.leastExponent).toNat * Nat.pow 2 f.fractionBits + significand)

end Format

end Floating

/-- A number of the 32-bit format, as its word. -/
structure Binary32 where
  /-- The word. -/
  bits : UInt32
deriving DecidableEq

/-- A number of the 64-bit format, as its word. -/
structure Binary64 where
  /-- The word. -/
  bits : UInt64
deriving DecidableEq

namespace Floating

/-- Equality of the numbers that two words of a format encode: a NaN differs from
everything, itself included, and the two zeros are equal. -/
def Format.equalNumbers (f : Format) (a b : Nat) : Bool :=
  match f.classify a, f.classify b with
  | .infinite s, .infinite t => s == t
  | .finite s m e, .finite t n k => m == n && (m == 0 || (s == t && e == k))
  | _, _ => false

end Floating

namespace Binary32

/-- What the word encodes. -/
def reading (x : Binary32) : Floating.Reading := Floating.Format.single.classify x.bits.toNat

/-- Equality as numbers. -/
def equal (x y : Binary32) : Bool :=
  Floating.Format.single.equalNumbers x.bits.toNat y.bits.toNat

end Binary32

namespace Binary64

/-- What the word encodes. -/
def reading (x : Binary64) : Floating.Reading := Floating.Format.double.classify x.bits.toNat

/-- Equality as numbers. -/
def equal (x y : Binary64) : Bool :=
  Floating.Format.double.equalNumbers x.bits.toNat y.bits.toNat

/-- The number nearest to `num / den`, which is infinity for quotients too large. -/
def ofQuotient (num den : Nat) : Binary64 :=
  ⟨UInt64.ofNat (Floating.Format.double.round num den)⟩

/-- The number of the opposite sign. -/
def negate (x : Binary64) : Binary64 := ⟨x.bits ^^^ 0x8000000000000000⟩

end Binary64

end RequestRouter
