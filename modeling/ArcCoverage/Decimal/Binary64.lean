/-
# Decimals of binary64 numbers

Percentages in summaries are computed with 53-bit binary floating point and then written with two
decimals. Both roundings go to the nearest value, and halfway cases to the even one; the second sees
the exact value that the first left. Here this is exact arithmetic on quotients of natural numbers.
-/

namespace ArcCoverage.Decimal

/-- **The nearest whole number to a quotient,** the even one if two are as near. -/
def halfEven (num den : Nat) : Nat :=
  let q := num / den
  let r := num % den
  if 2 * r < den then q
  else if den < 2 * r then q + 1
  else if q % 2 = 0 then q else q + 1

/-- A quotient of natural numbers. -/
structure Ratio where
  num : Nat
  den : Nat
  deriving DecidableEq, Repr

namespace Ratio

/-- A whole number. -/
def ofNat (n : Nat) : Ratio := ⟨n, 1⟩

/-- The product with a whole number. -/
def scale (r : Ratio) (n : Nat) : Ratio := ⟨r.num * n, r.den⟩

/-- The quotient of two quotients. -/
def dividedBy (r s : Ratio) : Ratio := ⟨r.num * s.den, r.den * s.num⟩

/-- Whether one quotient is below another. -/
def below (r s : Ratio) : Bool := r.num * s.den < s.num * r.den

/-- A quotient scaled by a power of two, and rounded to a multiple of that scale's unit. -/
def roundAt (r : Ratio) (up down : Nat) : Ratio :=
  ⟨halfEven (r.num <<< up) (r.den <<< down) <<< down, 1 <<< up⟩

/-- **The nearest binary64 number,** for quotients in its normal range. The scale is the one that
leaves 53 bits before the point. -/
def nearest (r : Ratio) : Ratio :=
  if r.num = 0 then ofNat 0
  else
    let up := 52 + r.den.log2 - r.num.log2
    let down := r.num.log2 - (52 + r.den.log2)
    if (r.num <<< up) / (r.den <<< down) < 1 <<< 52 then
      if down = 0 then r.roundAt (up + 1) 0 else r.roundAt 0 (down - 1)
    else r.roundAt up down

/-- A quotient with two decimals. -/
def twoPlaces (r : Ratio) : String :=
  let hundredths := halfEven (r.num * 100) r.den
  let tens := hundredths / 10 % 10
  let ones := hundredths % 10
  s!"{hundredths / 100}.{tens}{ones}"

end Ratio

end ArcCoverage.Decimal
