/-
# Execution counts

A count is a 64-bit word that sticks at its largest value instead of wrapping:

| operation | value |
| --- | --- |
| `Count.plus a b` | `min (a + b) Count.limit` |
| `Count.minus a b` | `a - b`, never below zero |
| `Count.total cs` | `min (Count.exactTotal cs) Count.limit` |

`Tally.plus` is the same addition for the 32-bit numbers of runs and programs. Every operation is
tied to the natural numbers by one `toNat` lemma, so that statements about counts are settled there.
-/

namespace ArcCoverage

/-- How often something ran. -/
abbrev Count := UInt64

namespace Count

/-- The largest count. -/
def limit : Nat := 0xFFFFFFFFFFFFFFFF

/-- A natural number as a count, cut at `limit`. -/
def ofNatCapped (n : Nat) : Count := UInt64.ofNat (min n limit)

theorem toNat_ofNatCapped (n : Nat) : (ofNatCapped n).toNat = min n limit := by
  have : min n limit < 2 ^ 64 := by unfold limit; omega
  rw [ofNatCapped, UInt64.toNat_ofNat', Nat.mod_eq_of_lt this]

theorem toNat_le_limit (a : Count) : a.toNat ≤ limit := by
  have := a.toNat_lt
  unfold limit
  omega

/-- **Saturating addition.** -/
def plus (a b : Count) : Count := ofNatCapped (a.toNat + b.toNat)

theorem toNat_plus (a b : Count) : (plus a b).toNat = min (a.toNat + b.toNat) limit :=
  toNat_ofNatCapped _

/-- **Subtraction that stops at zero.** -/
def minus (a b : Count) : Count := ofNatCapped (a.toNat - b.toNat)

theorem toNat_minus (a b : Count) : (minus a b).toNat = a.toNat - b.toNat := by
  have := a.toNat_le_limit
  rw [minus, toNat_ofNatCapped]
  omega

/-- **The saturating sum of a list of counts.** -/
def total (counts : List Count) : Count := counts.foldl plus 0

/-- The sum of a list of counts as a natural number, which nothing cuts. -/
def exactTotal (counts : List Count) : Nat := counts.foldr (fun c n => c.toNat + n) 0

theorem exactTotal_cons (c : Count) (cs : List Count) :
    exactTotal (c :: cs) = c.toNat + exactTotal cs := rfl

theorem toNat_foldl_plus (counts : List Count) (a : Count) :
    (counts.foldl plus a).toNat = min (a.toNat + exactTotal counts) limit := by
  induction counts generalizing a with
  | nil =>
    have := a.toNat_le_limit
    simp only [List.foldl_nil, exactTotal, List.foldr_nil]
    omega
  | cons c cs ih =>
    rw [List.foldl_cons, ih, toNat_plus, exactTotal_cons]
    omega

theorem toNat_total (counts : List Count) :
    (total counts).toNat = min (exactTotal counts) limit := by
  rw [total, toNat_foldl_plus, UInt64.toNat_zero, Nat.zero_add]

end Count

/-- A 32-bit number of runs or programs. -/
abbrev Tally := UInt32

namespace Tally

/-- The largest tally. -/
def limit : Nat := 0xFFFFFFFF

/-- **Saturating addition** of a natural number to a tally. -/
def plus (a : Tally) (n : Nat) : Tally := UInt32.ofNat (min (a.toNat + n) limit)

theorem toNat_plus (a : Tally) (n : Nat) : (plus a n).toNat = min (a.toNat + n) limit := by
  have : min (a.toNat + n) limit < 2 ^ 32 := by unfold limit; omega
  rw [plus, UInt32.toNat_ofNat', Nat.mod_eq_of_lt this]

end Tally

end ArcCoverage
