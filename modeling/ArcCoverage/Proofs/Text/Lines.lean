/-
# Lines written and read

A text put together from lines has these lines (`Text.lines_unlines`), unless one of them contains a
line feed or ends with a carriage return, which would be taken for part of its end. Lines without control
characters do neither (`Text.IsPrintable.isLine`), nor do lines that end with a quoted name without a line
feed (`Text.isLine_quoted`).
-/
import ArcCoverage.Proofs.Text.Columns

namespace ArcCoverage.Text

/-- A line as it is read back. -/
def IsLine (text : String) : Prop := '\n' ∉ text.toList ∧ text.toList.getLast? ≠ some '\r'

instance (text : String) : Decidable (IsLine text) := inferInstanceAs (Decidable (_ ∧ _))

/-- A first piece that holds no separator. -/
theorem split_append {separator : Char} {piece : List Char} (h : separator ∉ piece)
    (rest : List Char) :
    split separator (piece ++ separator :: rest) = piece :: split separator rest := by
  rw [split_append_cons, split_of_notMem h, List.singleton_append]

theorem toList_unlines (texts : List String) :
    (unlines texts).toList = texts.flatMap fun text => text.toList ++ ['\n'] := by
  induction texts with
  | nil => rfl
  | cons text texts ih =>
    rw [unlines, List.map_cons, String.join_cons, String.toList_append, List.flatMap_cons, ← ih, line,
      String.toList_append]
    rfl

/-- **Lines are read back** as they were written. -/
theorem lines_unlines {texts : List String} (h : ∀ text ∈ texts, IsLine text) :
    lines (unlines texts) = texts := by
  rw [lines, toList_unlines]
  induction texts with
  | nil => rfl
  | cons text texts ih =>
    obtain ⟨hbreak, hreturn⟩ := h text List.mem_cons_self
    have hrest := ih fun t ht => h t (List.mem_cons_of_mem text ht)
    rw [List.flatMap_cons, List.append_assoc, List.singleton_append, split_append hbreak]
    cases hpieces : split '\n' (texts.flatMap fun text => text.toList ++ ['\n']) with
    | nil => exact absurd hpieces (split_ne_nil _ _)
    | cons piece pieces =>
      rw [hpieces] at hrest
      rw [linePieces, List.map_cons, hrest, dropReturn, if_neg hreturn, String.ofList_toList]
      exact fun hnil => nomatch hnil

/-- A text without control characters. -/
def IsPrintable (text : String) : Prop := ∀ c ∈ text.toList, 32 ≤ c.toNat

instance (text : String) : Decidable (IsPrintable text) :=
  decidable_of_iff (text.toList.all fun c => 32 ≤ c.toNat) (by simp [IsPrintable])

theorem IsPrintable.append {text text' : String} (h : IsPrintable text) (h' : IsPrintable text') :
    IsPrintable (text ++ text') := by
  intro c hc
  rw [String.toList_append, List.mem_append] at hc
  exact hc.elim (h c) (h' c)

/-- Numbers are digits. -/
theorem isPrintable_toString (n : Nat) : IsPrintable (toString n) := by
  intro c hc
  have hrange := (Char.isDigit_iff_toNat.1 (isDigit_of_mem_repr hc)).1
  have hzero : '0'.toNat = 48 := rfl
  omega

theorem IsPrintable.isLine {text : String} (h : IsPrintable text) : IsLine text := by
  constructor
  · intro hbreak
    exact absurd (h _ hbreak) (by decide)
  · intro hreturn
    exact absurd (h _ (List.mem_of_getLast? hreturn)) (by decide)

/-- **A name in quotes at the end of a line.** -/
theorem isLine_quoted {front name : String} (hfront : IsPrintable front) (hname : '\n' ∉ name.toList) :
    IsLine (front ++ name ++ "'") := by
  constructor
  · simp only [String.toList_append, List.mem_append, not_or]
    exact ⟨⟨(hfront.isLine).1, hname⟩, by decide⟩
  · rw [String.toList_append, List.getLast?_append]
    intro hreturn
    have hquote : '\'' = '\r' := Option.some.inj hreturn
    exact absurd hquote (by decide)

end ArcCoverage.Text
