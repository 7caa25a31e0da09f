/-
# Shares of branches

A block that is left by several real arcs shows for each of them what part it has of all. The part is a
whole number of percents, and yet says which branches were never taken and which always:

| shown | of an arc | lemma |
| --- | --- | --- |
| 0 | that was not taken | `Percent.whole_eq_zero_iff` |
| 100 | that was taken, and no other | `Percent.whole_eq_hundred_iff` |
| 1 … 99 | otherwise: the nearest whole number within these bounds, a half goes up | `Percent.whole_eq_round` |

Numbers that are nearest to the same quotient are the same, so larger counts show no smaller parts
(`Percent.whole_mono`). All this asks for the sum of the counts, which must be a count itself: then the
sum is exact, and what a share is computed from stays within the words it is computed in
(`Percent.sharesWithin_eq`).
-/
import ArcCoverage.Proofs.Flow.Balance
import ArcCoverage.Proofs.Report.BothFormats
import Mathlib.Algebra.Order.Round
import Mathlib.Data.Rat.Floor

namespace ArcCoverage

/-! ## Sums with one addend taken out -/

namespace Count

variable {counts : List Count} {c : Count} {i : Nat}

theorem exactTotal_eraseIdx (h : counts[i]? = some c) :
    exactTotal counts = c.toNat + exactTotal (counts.eraseIdx i) := by
  induction counts generalizing i with
  | nil => cases h
  | cons d counts ih =>
    cases i with
    | zero =>
      obtain rfl := Option.some.inj h
      rfl
    | succ i =>
      rw [exactTotal_cons, List.eraseIdx_cons_succ, exactTotal_cons, ih h]
      omega

/-- **An addend is the whole sum** exactly if all others are zero. -/
theorem exactTotal_le_iff (h : counts[i]? = some c) :
    exactTotal counts ≤ c.toNat ↔ ∀ (j : Nat) (d : Count), j ≠ i → counts[j]? = some d → d = 0 := by
  have hrest : exactTotal counts ≤ c.toNat ↔ exactTotal (counts.eraseIdx i) = 0 := by
    rw [exactTotal_eraseIdx h]
    omega
  rw [hrest, exactTotal_eq_zero_iff]
  constructor
  · intro hzero j d hj hd
    exact hzero d (List.mem_eraseIdx_iff_getElem?.2 ⟨j, hj, hd⟩)
  · intro hzero d hd
    obtain ⟨j, hj, hd⟩ := List.mem_eraseIdx_iff_getElem?.1 hd
    exact hzero j d hj hd

end Count

/-! ## One share -/

namespace Percent

variable {num num' den : Nat}

/-- **The share of everything** is what shows as a hundred. -/
theorem whole_eq_hundred_iff : whole num den = 100 ↔ num ≠ 0 ∧ den ≠ 0 ∧ den ≤ num := by
  unfold whole
  split_ifs with hzero hall
  · have hnone : num = 0 ∨ den = 0 := by simpa using hzero
    exact iff_of_false (by decide) (by omega)
  · have hsome : ¬ (num = 0 ∨ den = 0) := by simpa using hzero
    exact iff_of_true rfl (by omega)
  · omega

/-- The quotient with half of the divisor added first is the nearest whole number. -/
theorem div_eq_round (num : Nat) (hden : den ≠ 0) :
    (((num * 100 + den / 2) / den : Nat) : ℤ) = round ((100 * num : ℚ) / den) := by
  have hdenQ : (den : ℚ) ≠ 0 := by exact_mod_cast hden
  have hhalf : (100 * num : ℚ) / den + 1 / 2 = ((200 * num + den : Nat) : ℚ) / ((2 * den : Nat) : ℚ) := by
    push_cast
    field_simp
    ring
  have hdiv : (num * 100 + den / 2) / den = (200 * num + den) / (2 * den) := by
    rw [← Nat.div_div_eq_div_mul]
    congr 1
    omega
  rw [round_eq, hhalf, hdiv]
  exact (Rat.floor_natCast_div_natCast _ _).symm

/-- **Any other share is rounded,** and kept off the ends. -/
theorem whole_eq_round (hnum : num ≠ 0) (hpart : num < den) :
    (whole num den : ℤ) = min (max (round ((100 * num : ℚ) / den)) 1) 99 := by
  have hzero : ¬ (num = 0 || den = 0) = true := by
    rw [Bool.or_eq_true, decide_eq_true_iff, decide_eq_true_iff]
    omega
  rw [whole, if_neg hzero, if_neg (by omega), ← div_eq_round num (by omega)]
  push_cast
  rfl

/-- **Of more there is no smaller share.** -/
theorem whole_mono (h : num ≤ num') : whole num den ≤ whole num' den := by
  have hquotient : (num * 100 + den / 2) / den ≤ (num' * 100 + den / 2) / den :=
    Nat.div_le_div_right (by omega)
  by_cases hsmall : num = 0 ∨ den = 0
  · rw [whole_eq_zero_iff.2 hsmall]
    exact Nat.zero_le _
  · have hsmall' : ¬ (num' = 0 ∨ den = 0) := by omega
    by_cases hall : den ≤ num'
    · rw [whole_eq_hundred_iff.2 (by omega : num' ≠ 0 ∧ den ≠ 0 ∧ den ≤ num')]
      exact whole_le num den
    · unfold whole
      simp only [Bool.or_eq_true, decide_eq_true_iff, hsmall, hsmall', if_false, hall,
        show ¬ den ≤ num by omega]
      omega

/-! ## All shares of a sum -/

/-- The shares of counts in their sum. -/
def shares (counts : List Count) : List Nat :=
  counts.map fun c => whole c.toNat (Count.exactTotal counts)

/-- **What shares say about counts.** -/
structure Faithful (counts : List Count) (shares : List Nat) : Prop where
  length : shares.length = counts.length
  /-- Zero is shown of what is zero. -/
  zero_iff : ∀ (i : Nat) c n, counts[i]? = some c → shares[i]? = some n → (n = 0 ↔ c = 0)
  /-- A hundred is shown of what is all there is. -/
  hundred_iff : ∀ (i : Nat) c n, counts[i]? = some c → shares[i]? = some n →
    (n = 100 ↔ c ≠ 0 ∧ ∀ (j : Nat) d, j ≠ i → counts[j]? = some d → d = 0)
  /-- Anything else is rounded, a half upwards, and shown within 1 and 99. -/
  rounded : ∀ (i : Nat) c n, counts[i]? = some c → shares[i]? = some n → n ≠ 0 → n ≠ 100 →
    (n : ℤ) = min (max (round ((100 * c.toNat : ℚ) / Count.exactTotal counts)) 1) 99
  /-- A larger count shows no smaller share. -/
  mono : ∀ (i j : Nat) c d m n, counts[i]? = some c → counts[j]? = some d → shares[i]? = some m →
    shares[j]? = some n → c < d → m ≤ n

theorem faithful_shares (counts : List Count) : Faithful counts (shares counts) := by
  have hshare {i : Nat} {c : Count} {n : Nat} (hc : counts[i]? = some c)
      (hn : (shares counts)[i]? = some n) : n = whole c.toNat (Count.exactTotal counts) := by
    rw [shares, List.getElem?_map, hc] at hn
    exact (Option.some.inj hn).symm
  have hle {i : Nat} {c : Count} (hc : counts[i]? = some c) : c.toNat ≤ Count.exactTotal counts := by
    rw [Count.exactTotal_eraseIdx hc]
    omega
  have hzero (c : Count) : c.toNat = 0 ↔ c = 0 := by rw [← UInt64.toNat_zero, UInt64.toNat_inj]
  refine ⟨by rw [shares, List.length_map], ?_, ?_, ?_, ?_⟩
  · intro i c n hc hn
    have := hle hc
    rw [hshare hc hn, whole_eq_zero_iff, ← hzero c]
    omega
  · intro i c n hc hn
    have := hle hc
    rw [hshare hc hn, whole_eq_hundred_iff, ← Count.exactTotal_le_iff hc, ne_eq, ne_eq, ne_eq, ← hzero c]
    omega
  · intro i c n hc hn hnotZero hnotAll
    have := hle hc
    rw [hshare hc hn, ne_eq, whole_eq_zero_iff] at hnotZero
    rw [hshare hc hn, ne_eq, whole_eq_hundred_iff] at hnotAll
    rw [hshare hc hn, whole_eq_round (by omega) (by omega)]
  · intro i j c d m n hc hd hm hn hlt
    rw [hshare hc hm, hshare hd hn]
    exact whole_mono (Nat.le_of_lt (UInt64.lt_iff_toNat_lt.1 hlt))

/-! ## Within words -/

/-- The largest number of 128 bits. -/
def wideLimit : Nat := 0xFFFFFFFFFFFFFFFFFFFFFFFFFFFFFFFF

/-- A number, unless it is past a limit. -/
def within (limit n : Nat) : Option Nat := if n ≤ limit then some n else none

theorem within_eq_some {limit n : Nat} (h : n ≤ limit) : within limit n = some n := if_pos h

/-- **A share whose computation stays within words:** 128 bits for the sum of the scaled count and half
of the total, 64 for their quotient. -/
def wholeWithin (num den : Count) : Option Nat :=
  if num = 0 || den = 0 then some 0
  else if den ≤ num then some 100
  else do
    let scaled ← within wideLimit (num.toNat * 100)
    let raised ← within wideLimit (scaled + den.toNat / 2)
    let quotient ← within Count.limit (raised / den.toNat)
    return min (max quotient 1) 99

/-- A sum of counts that stays a count with every addend. -/
def totalWithin (counts : List Count) : Option Count :=
  (counts.foldlM (fun sum c => within Count.limit (sum + c.toNat)) 0).map UInt64.ofNat

/-- **Shares of which no part is past the limit of its word.** -/
def sharesWithin (counts : List Count) : Option (List Nat) := do
  let total ← totalWithin counts
  counts.mapM (wholeWithin · total)

/-- **The computation of a share never leaves its words.** -/
theorem wholeWithin_eq (num den : Count) : wholeWithin num den = some (whole num.toNat den.toNat) := by
  have hzero (c : Count) : c = 0 ↔ c.toNat = 0 := by rw [← UInt64.toNat_zero, UInt64.toNat_inj]
  unfold wholeWithin whole
  simp only [hzero, UInt64.le_iff_toNat_le]
  split_ifs with hnone hall
  · rfl
  · rfl
  · have hnum := num.toNat_le_limit
    have hden := den.toNat_le_limit
    have hscaled : num.toNat * 100 ≤ wideLimit := by
      unfold Count.limit at hnum
      unfold wideLimit
      omega
    have hraised : num.toNat * 100 + den.toNat / 2 ≤ wideLimit := by
      unfold Count.limit at hnum hden
      unfold wideLimit
      omega
    -- the quotient is at most a hundred, since the count is below the total
    have hquotient : (num.toNat * 100 + den.toNat / 2) / den.toNat ≤ Count.limit := by
      have hle : num.toNat * 100 + den.toNat / 2 ≤ 101 * den.toNat := by omega
      have hcut := Nat.div_le_of_le_mul (Nat.mul_comm 101 den.toNat ▸ hle)
      unfold Count.limit
      omega
    simp only [within_eq_some hscaled, within_eq_some hraised, within_eq_some hquotient,
      Option.bind_eq_bind, Option.bind_some]
    rfl

theorem foldlM_within {counts : List Count} {sum : Nat}
    (h : sum + Count.exactTotal counts ≤ Count.limit) :
    counts.foldlM (fun sum c => within Count.limit (sum + c.toNat)) sum =
      some (sum + Count.exactTotal counts) := by
  induction counts generalizing sum with
  | nil => rfl
  | cons c counts ih =>
    rw [Count.exactTotal_cons] at h ⊢
    rw [List.foldlM_cons, within_eq_some (by omega), Option.bind_eq_bind, Option.bind_some,
      ih (by omega), Nat.add_assoc]

/-- **If the sum is a count, no value overflows.** -/
theorem sharesWithin_eq {counts : List Count} (h : Count.exactTotal counts ≤ Count.limit) :
    sharesWithin counts = some (shares counts) := by
  have hsize : Count.exactTotal counts < UInt64.size := by
    unfold Count.limit at h
    unfold UInt64.size
    omega
  have htotal : totalWithin counts = some (UInt64.ofNat (Count.exactTotal counts)) := by
    rw [totalWithin, foldlM_within (by omega), Nat.zero_add, Option.map_some]
  have heach : (fun c => wholeWithin c (UInt64.ofNat (Count.exactTotal counts))) =
      fun c => some (whole c.toNat (Count.exactTotal counts)) := by
    funext c
    rw [wholeWithin_eq, UInt64.toNat_ofNat_of_lt' hsize]
  rw [sharesWithin, htotal, Option.bind_eq_bind, Option.bind_some, heach]
  exact List.mapM_pure

end Percent

/-! ## The lines of branches -/

/-- **The line of a branch** with its share. -/
def Percent.branchLine (number share : Nat) (fallthrough : Bool) : String :=
  "branch " ++ Text.padNat 2 number ++ " taken " ++ toString share ++ "%" ++
    if fallthrough then " (fallthrough)" else ""

/-- The lines of branches with their shares, numbered from a number on. -/
def Percent.branchLines (number : Nat) : List Arc → List Nat → List String
  | a :: arcs, share :: shares =>
    branchLine number share a.fallthrough :: branchLines (number + 1) arcs shares
  | _, _ => []

namespace Detail

variable {options : Options} {g : FlowGraph} {b : Nat}

theorem text_branch_percent (line number share : Nat) (fallthrough : Bool) :
    text line number (.branch (.percent share) fallthrough) =
      Percent.branchLine number share fallthrough := by
  have hran : (Taken.percent share != .never) = true := rfl
  have hverb : " taken " = " " ++ "taken " := rfl
  change "branch " ++ Text.padNat 2 number ++ " " ++ (Taken.percent share).text "taken" ++
    (if fallthrough && Taken.percent share != .never then " (fallthrough)" else "") = _
  rw [Taken.text_percent, hran, Bool.and_true, Percent.branchLine, hverb]
  simp only [String.append_assoc]
  rfl

/-- A branch of a block that ran shows its share. -/
theorem ofArcs_eq_shares (hcounts : options.branchCounts = false) (hran : (g.block b).count ≠ 0)
    (hbranching : 2 ≤ (g.realOutArcs b).length)
    (hfits : Count.exactTotal ((g.realOutArcs b).map Arc.count) ≤ Count.limit) :
    ofArcs options g b = (g.realOutArcs b).map fun a => .branch (.percent (Percent.whole a.count.toNat
      (Count.exactTotal ((g.realOutArcs b).map Arc.count)))) a.fallthrough := by
  have htotal : (Count.total ((g.realOutArcs b).map Arc.count)).toNat =
      Count.exactTotal ((g.realOutArcs b).map Arc.count) := by
    rw [Count.toNat_total]
    omega
  rw [← htotal]
  unfold ofArcs
  split
  · next harcs => simp [harcs] at hbranching
  · next a harcs => simp [harcs] at hbranching
  · simp only [taken, hran, hcounts, if_false, Bool.false_eq_true]

/-- Details that are branches with shares are written one below the other. -/
theorem map_text_number_shares (line : Nat) (share : Arc → Nat) (arcs : List Arc)
    (before : List Detail) :
    (Annotated.number line before (arcs.map fun a => .branch (.percent (share a)) a.fallthrough)).map
        Row.text =
      Percent.branchLines (before.countP fun d => d.kind == .branch) arcs (arcs.map share) := by
  induction arcs generalizing before with
  | nil => rfl
  | cons a arcs ih =>
    have hmore (taken : Taken) (fallthrough : Bool) :
        (before ++ [Detail.branch taken fallthrough]).countP (fun d => d.kind == .branch) =
          before.countP (fun d => d.kind == .branch) + 1 := by
      rw [List.countP_append]
      rfl
    rw [List.map_cons, List.map_cons, Annotated.number, List.map_cons, ih, hmore,
      Percent.branchLines, ← text_branch_percent line]
    rfl

/-- **The shares of branches are faithful.** If a block ran and its real arcs out are two or more, whose
counts add up to a count, each of them has a line with its share, numbered on from the branches before.
The shares are zero, a hundred or rounded as `Percent.Faithful` says, and are computed without any value
past its word. -/
theorem branch_shares_faithful (hcounts : options.branchCounts = false)
    (hran : (g.block b).count ≠ 0) (hbranching : 2 ≤ (g.realOutArcs b).length)
    (hfits : Count.exactTotal ((g.realOutArcs b).map Arc.count) ≤ Count.limit) :
    let counts := (g.realOutArcs b).map Arc.count
    ∃ shares, Percent.sharesWithin counts = some shares ∧ Percent.Faithful counts shares ∧
      ∀ line before, (Annotated.number line before (ofArcs options g b)).map Row.text =
        Percent.branchLines (before.countP fun d => d.kind == .branch) (g.realOutArcs b) shares := by
  intro counts
  refine ⟨Percent.shares counts, Percent.sharesWithin_eq hfits, Percent.faithful_shares counts, ?_⟩
  intro line before
  rw [ofArcs_eq_shares hcounts hran hbranching hfits, map_text_number_shares, Percent.shares,
    List.map_map]
  rfl

end Detail

/-- A block that is left by three real arcs: nearly always by the first, once by the second, and never by
the third. The counts add up to the largest count. -/
def FlowGraph.lopsided : FlowGraph where
  blocks := [{ count := 0xFFFFFFFFFFFFFFFF, outArcs := [0, 1, 2, 3] }]
  arcs := [⟨0, 1, 4, 0xFFFFFFFFFFFFFFFE⟩, ⟨0, 2, 0, 1⟩, ⟨0, 3, 2, 5⟩, ⟨0, 4, 0, 0⟩]

/-- **The largest sum there is,** with parts that round to a hundred and to zero and are shown as
neither. The fake arc is left out. -/
theorem Detail.branch_shares_faithful_lopsided :
    let g := FlowGraph.lopsided
    let counts := (g.realOutArcs 0).map Arc.count
    (g.block 0).count ≠ 0 ∧ 2 ≤ (g.realOutArcs 0).length ∧ Count.exactTotal counts ≤ Count.limit ∧
      Percent.sharesWithin counts = some [99, 1, 0] ∧ Percent.Faithful counts [99, 1, 0] ∧
      (Annotated.number 7 [] (ofArcs {} g 0)).map Row.text =
        ["branch  0 taken 99% (fallthrough)", "branch  1 taken 1%", "branch  2 taken 0%"] := by
  intro g counts
  have hran : (g.block 0).count ≠ 0 := by decide
  have hbranching : 2 ≤ (g.realOutArcs 0).length := by decide
  have hfits : Count.exactTotal counts ≤ Count.limit := by decide
  obtain ⟨shares, hwithin, hfaithful, hlines⟩ :=
    @branch_shares_faithful {} g 0 rfl hran hbranching hfits
  have hshares : Percent.sharesWithin counts = some [99, 1, 0] := by decide +kernel
  obtain rfl : shares = [99, 1, 0] := Option.some.inj (hwithin.symm.trans hshares)
  exact ⟨hran, hbranching, hfits, hwithin, hfaithful, (hlines 7 []).trans (by decide +kernel)⟩

end ArcCoverage
