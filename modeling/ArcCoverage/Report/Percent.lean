/-
# Percentages

Two ways to say what part of a whole something is. Neither shows a part as nothing or as everything
unless it is.

| where | form | a part of the whole is shown within |
| --- | --- | --- |
| summaries | two decimals, from 53-bit floating point | 0.01 … 99.99 |
| branch, call and function lines | whole number, halves up | 1 … 99 |
-/
import ArcCoverage.Decimal.Binary64

namespace ArcCoverage.Percent

open Decimal

/-- **The percentage of a summary.** -/
def twoPlaces (num den : Nat) : String :=
  if den = 0 then "0.00"
  else
    let part := (Ratio.nearest (Ratio.ofNat num)).scale 100
    let percent := (part.nearest.dividedBy (Ratio.ofNat den).nearest).nearest
    if 0 < num && percent.below (Ratio.nearest ⟨5, 1000⟩) then "0.01"
    else if num < den && !percent.below (Ratio.nearest ⟨99995, 1000⟩) then "99.99"
    else percent.twoPlaces

/-- **The percentage of a branch, call or function line.** -/
def whole (num den : Nat) : Nat :=
  if num = 0 || den = 0 then 0
  else if den ≤ num then 100
  else min (max ((num * 100 + den / 2) / den) 1) 99

theorem whole_le (num den : Nat) : whole num den ≤ 100 := by
  unfold whole
  split
  · omega
  · split <;> omega

end ArcCoverage.Percent
