/-
# Numbers and columns read back

Reports are texts with numbers in columns. A number is found again in its digits (`Text.number?_repr`) and a
text in its column (`Text.unpad_padLeft`), if it does not begin with a blank. The words of a text are the
same in any column (`Text.words_padLeft`).
-/
import ArcCoverage.Proofs.Text.Pieces

namespace ArcCoverage.Text

variable {c : Char} {text : String}

/-! ## Numbers -/

/-- Numbers are written in digits. -/
theorem isDigit_of_mem_repr {n : Nat} (hc : c ∈ n.repr.toList) : c.isDigit = true :=
  Nat.isDigit_of_mem_toDigits (by decide) (by decide) (Nat.toList_repr ▸ hc)

theorem notMem_repr (hc : c.isDigit = false) (n : Nat) : c ∉ n.repr.toList := by
  intro hmem
  rw [isDigit_of_mem_repr hmem] at hc
  cases hc

/-- What is written with another character than digits is no number. -/
theorem repr_ne {n : Nat} (hc : c ∈ text.toList) (hdigit : c.isDigit = false) : n.repr ≠ text := by
  rintro rfl
  exact notMem_repr hdigit n hc

theorem repr_ne_empty (n : Nat) : n.repr ≠ "" := by
  intro h
  have hdigits : Nat.toDigits 10 n = [] := by rw [← Nat.toList_repr, h, String.toList_empty]
  exact Nat.toDigits_ne_nil hdigits

/-- The number that a text of digits stands for. -/
def number? (text : String) : Option Nat :=
  if text ≠ "" ∧ text.toList.all Char.isDigit then some (Nat.ofDigitChars 10 text.toList 0) else none

/-- **Numbers are read back.** -/
theorem number?_repr (n : Nat) : number? n.repr = some n := by
  have hdigits : n.repr.toList.all Char.isDigit = true :=
    List.all_eq_true.2 fun c hc => isDigit_of_mem_repr hc
  rw [number?, if_pos ⟨repr_ne_empty n, hdigits⟩, Nat.toList_repr, Nat.ofDigitChars_ten_toDigits]

theorem repr_eq_zero_iff {n : Nat} : n.repr = "0" ↔ n = 0 := by
  constructor
  · intro h
    have hnumber := congrArg number? h
    rw [number?_repr] at hnumber
    exact Option.some.inj hnumber
  · rintro rfl
    rfl

/-- A count that shows as nothing is zero. -/
theorem repr_zero_iff {n : Nat} : n.repr = "0" ∨ n.repr = "0%" ↔ n = 0 := by
  rw [or_iff_left (repr_ne (c := '%') (by decide) (by decide)), repr_eq_zero_iff]

/-- So is a share. -/
theorem percent_zero_iff {n : Nat} : n.repr ++ "%" = "0" ∨ n.repr ++ "%" = "0%" ↔ n = 0 := by
  have htimes : n.repr ++ "%" ≠ "0" := by
    intro h
    have hlast := congrArg (fun s => s.toList.getLast?) h
    simp at hlast
  rw [or_iff_right htimes, show "0%" = "0" ++ "%" from rfl, String.append_left_inj, repr_eq_zero_iff]

/-! ## Columns -/

theorem notMem_padLeft (hblank : c ≠ ' ') (h : c ∉ text.toList) (width : Nat) :
    c ∉ (padLeft width text).toList := by
  rw [padLeft, String.toList_append, String.toList_ofList, List.mem_append, not_or]
  exact ⟨fun hc => hblank (List.eq_of_mem_replicate hc), h⟩

theorem notMem_padNat (hblank : c ≠ ' ') (hc : c.isDigit = false) (width n : Nat) :
    c ∉ (padNat width n).toList :=
  notMem_padLeft hblank (notMem_repr hc n) width

/-- A text without the blanks in front of it. -/
def unpad (text : String) : String := String.ofList (text.toList.dropWhile (· = ' '))

/-- **What stands in a column** is found in it. -/
theorem unpad_padLeft (width : Nat) (h : ' ' ∉ text.toList) : unpad (padLeft width text) = text := by
  have hkept : text.toList.dropWhile (· = ' ') = text.toList := by
    cases hchars : text.toList with
    | nil => rfl
    | cons c cs =>
      rw [hchars, List.mem_cons, not_or] at h
      exact List.dropWhile_cons_of_neg (by simpa using Ne.symm h.1)
  have hblanks (n : Nat) : (List.replicate n ' ' ++ text.toList).dropWhile (· = ' ') = text.toList := by
    rw [List.dropWhile_append_of_pos fun c hc => decide_eq_true (List.eq_of_mem_replicate hc), hkept]
  rw [unpad, padLeft, String.toList_append, String.toList_ofList, hblanks, String.ofList_toList]

theorem unpad_padNat (width n : Nat) : unpad (padNat width n) = n.repr :=
  unpad_padLeft width (notMem_repr (by decide) n)

/-- The words of a text. -/
def words (text : String) : List String := (cut ' ' text).filter (· ≠ "")

theorem words_append (front back : String) : words (front ++ " " ++ back) = words front ++ words back := by
  rw [words, cut_append rfl, List.filter_append]
  rfl

theorem words_of_notMem (h : ' ' ∉ text.toList) (hne : text ≠ "") : words text = [text] := by
  rw [words, cut_of_notMem h]
  exact List.filter_cons_of_pos (decide_eq_true hne)

theorem words_padLeft (width : Nat) (text : String) : words (padLeft width text) = words text := by
  have hblanks (n : Nat) : split ' ' (List.replicate n ' ' ++ text.toList) =
      List.replicate n [] ++ split ' ' text.toList := by
    induction n with
    | zero => rfl
    | succ n ih =>
      rw [List.replicate_succ, List.cons_append, split, if_pos rfl, ih]
      rfl
  rw [words, words, cut, padLeft, String.toList_append, String.toList_ofList, hblanks, List.map_append,
    List.filter_append, List.map_replicate]
  simp [cut]

theorem words_padNat (width n : Nat) : words (padNat width n) = [n.repr] :=
  (words_padLeft width _).trans (words_of_notMem (notMem_repr (by decide) n) (repr_ne_empty n))

end ArcCoverage.Text
