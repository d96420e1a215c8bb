import RequestRouter.Json.Basic

/-!
# Reading the numbers of a document

An integer that fits a word of 64 bits, signed or not, is kept as it is. Every other
number becomes floating point, in steps that each round: as many leading digits as fit
an unsigned word are taken as the significand, which is rounded to a floating-point
number and then multiplied or divided by a rounded power of ten. So the result can
differ in the last place from the number nearest to the text. A number too large for
the format is refused, one too small is zero.
-/

namespace RequestRouter

namespace Json

/-- A number as it is written: the sign, the digits before and after the point, and
the exponent. -/
structure Numeral where
  /-- Whether a minus sign stands in front. -/
  negative : Bool
  /-- The digits before the point. -/
  whole : List Nat
  /-- The digits after the point, if there is one. -/
  fraction : Option (List Nat)
  /-- The exponent, if there is one. -/
  exponent : Option Int

/-- The bound of unsigned words of 64 bits. -/
def wordBound : Nat := Nat.pow 2 64

/-- A significand that fits a word, and the power of ten it stands for. -/
structure Significand where
  /-- The leading digits, as a number. -/
  digits : Nat
  /-- The power of ten of the last of them. -/
  exponent : Int
  /-- Whether a digit was left out. -/
  full : Bool

/-- The significand with one more digit before the point: once a digit does not fit, it
and all that follow only count towards the exponent. -/
def Significand.whole (s : Significand) (digit : Nat) : Significand :=
  if s.full || wordBound ≤ s.digits * 10 + digit then ⟨s.digits, s.exponent + 1, true⟩
  else ⟨s.digits * 10 + digit, s.exponent, false⟩

/-- The significand with one more digit behind the point: once a digit does not fit,
it and all that follow are dropped. -/
def Significand.fraction (s : Significand) (digit : Nat) : Significand :=
  if s.full || wordBound ≤ s.digits * 10 + digit then ⟨s.digits, s.exponent, true⟩
  else ⟨s.digits * 10 + digit, s.exponent - 1, false⟩

/-- A finite number that is not negative, as a quotient. -/
def quotient (x : Binary64) : Nat × Nat :=
  match x.reading with
  | .finite _ significand exponent =>
    (significand * Nat.pow 2 exponent.toNat, Nat.pow 2 (-exponent).toNat)
  | _ => (0, 1)

/-- The product with `10 ^ n`, rounded. -/
def timesTen (x : Binary64) (n : Nat) : Binary64 :=
  let (a, b) := quotient x
  let (c, d) := quotient (Binary64.ofQuotient (Nat.pow 10 n) 1)
  Binary64.ofQuotient (a * c) (b * d)

/-- The quotient by `10 ^ n`, rounded. -/
def overTen (x : Binary64) (n : Nat) : Binary64 :=
  let (a, b) := quotient x
  let (c, d) := quotient (Binary64.ofQuotient (Nat.pow 10 n) 1)
  Binary64.ofQuotient (a * d) (b * c)

/-- Whether the number is infinite. -/
def isInfinite (x : Binary64) : Bool :=
  match x.reading with
  | .infinite _ => true
  | _ => false

/-- The greatest power of ten that the format holds. -/
def greatestPower : Nat := 308

/-- The number times `10 ^ -n`, in divisions by powers that the format holds. -/
def scaleDown (x : Binary64) (n : Nat) : Binary64 :=
  if n ≤ greatestPower then overTen x n
  else if x.bits = 0 then x
  else scaleDown (overTen x greatestPower) (n - greatestPower)
termination_by n
decreasing_by simp_all only [greatestPower]; omega

/-- The number times `10 ^ exponent`, unless it is too large. -/
def scale? (x : Binary64) (exponent : Int) : Option Binary64 :=
  if exponent < 0 then some (scaleDown x (-exponent).toNat)
  else if exponent ≤ greatestPower then
    let y := timesTen x exponent.toNat
    if isInfinite y then none else some y
  else if x.bits = 0 then some x
  else none

/-- The floating-point number of a significand, unless it is too large. -/
def Significand.float? (s : Significand) (negative : Bool) (exponent : Int) : Option Json :=
  (scale? (Binary64.ofQuotient s.digits 1) (s.exponent + exponent)).map fun x =>
    .float (if negative then x.negate else x)

/-- The number of a numeral. A minus sign in front of zero is kept by making it a
floating-point number. -/
def Numeral.read? (n : Numeral) : Option Json :=
  let whole := n.whole.foldl Significand.whole ⟨0, 0, false⟩
  match n.fraction, n.exponent with
  | none, none =>
    if whole.full then whole.float? n.negative 0
    else if !n.negative then some (.int whole.digits)
    else if 0 < whole.digits && whole.digits ≤ wordBound / 2 then some (.int (-whole.digits))
    else whole.float? true 0
  | fraction, exponent =>
    -- The digits behind the point are tried anew, even after some were left out.
    let all := (fraction.getD []).foldl Significand.fraction ⟨whole.digits, whole.exponent, false⟩
    all.float? n.negative (exponent.getD 0)

end Json

end RequestRouter
