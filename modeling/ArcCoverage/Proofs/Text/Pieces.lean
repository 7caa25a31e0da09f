/-
# Pieces between separators

`Text.split` and `Text.join` undo each other. One direction holds of every text (`Text.join_split`), the
other of pieces that hold no separator:

| cut | gives | lemma |
| --- | --- | --- |
| a text behind another, a separator between them | the pieces of both | `Text.split_append_cons` |
| pieces put together | these pieces | `Text.split_join` |

`Text.cut` and `Text.glue` do the same with strings.
-/
import ArcCoverage.Text.Layout

namespace ArcCoverage.Text

variable {separator : Char}

theorem notMem_of_mem_split {piece cs : List Char} (h : piece ∈ split separator cs) :
    separator ∉ piece := by
  induction cs generalizing piece with
  | nil =>
    rw [split, List.mem_singleton] at h
    rw [h]
    exact List.not_mem_nil
  | cons c cs ih =>
    rw [split] at h
    split at h
    · rcases List.mem_cons.1 h with rfl | h
      · exact List.not_mem_nil
      · exact ih h
    · next hc =>
      -- The first character belongs to the first piece of the rest.
      split at h
      · next hnil => exact absurd hnil (split_ne_nil _ _)
      · next first pieces hsplit =>
        rcases List.mem_cons.1 h with rfl | h
        · have hfirst : separator ∉ first := ih (by rw [hsplit]; exact List.mem_cons_self)
          simp only [List.mem_cons, not_or]
          exact ⟨Ne.symm hc, hfirst⟩
        · exact ih (by rw [hsplit]; exact List.mem_cons_of_mem _ h)

theorem split_of_notMem {cs : List Char} (h : separator ∉ cs) : split separator cs = [cs] := by
  induction cs with
  | nil => rfl
  | cons c cs ih =>
    rw [List.mem_cons, not_or] at h
    rw [split, if_neg (Ne.symm h.1), ih h.2]

/-- **Cutting at a separator** cuts both sides on their own. -/
theorem split_append_cons (separator : Char) (cs rest : List Char) :
    split separator (cs ++ separator :: rest) = split separator cs ++ split separator rest := by
  induction cs with
  | nil => simp [split]
  | cons c cs ih =>
    rw [List.cons_append, split, split, ih]
    split
    · rfl
    · cases hsplit : split separator cs with
      | nil => exact absurd hsplit (split_ne_nil _ _)
      | cons first pieces => rfl

/-- **Splitting undoes joining** of pieces that hold no separator. -/
theorem split_join {pieces : List (List Char)} (hne : pieces ≠ [])
    (h : ∀ piece ∈ pieces, separator ∉ piece) : split separator (join separator pieces) = pieces := by
  induction pieces with
  | nil => exact absurd rfl hne
  | cons piece pieces ih =>
    have hpiece := split_of_notMem (h piece List.mem_cons_self)
    cases pieces with
    | nil => exact hpiece
    | cons next pieces =>
      rw [join_cons _ _ (List.cons_ne_nil _ _), split_append_cons, hpiece,
        ih (List.cons_ne_nil _ _) fun other hother => h other (List.mem_cons_of_mem _ hother)]
      rfl

/-- What is in joined pieces is a separator, or in one of them. -/
theorem mem_join {c : Char} {pieces : List (List Char)} (h : c ∈ join separator pieces) :
    c = separator ∨ ∃ piece ∈ pieces, c ∈ piece := by
  induction pieces with
  | nil => exact absurd h List.not_mem_nil
  | cons piece pieces ih =>
    cases pieces with
    | nil => exact .inr ⟨piece, List.mem_cons_self, h⟩
    | cons next pieces =>
      rw [join_cons _ _ (List.cons_ne_nil _ _), List.mem_append, List.mem_cons] at h
      rcases h with h | h | h
      · exact .inr ⟨piece, List.mem_cons_self, h⟩
      · exact .inl h
      · exact (ih h).imp_right fun ⟨other, hother, hc⟩ => ⟨other, List.mem_cons_of_mem _ hother, hc⟩

/-! ## Pieces of a string -/

/-- The pieces of a string between separators. -/
def cut (separator : Char) (text : String) : List String :=
  (split separator text.toList).map String.ofList

/-- Strings with separators between them. -/
def glue (separator : Char) (pieces : List String) : String :=
  String.ofList (join separator (pieces.map String.toList))

theorem map_toList_cut (separator : Char) (text : String) :
    (cut separator text).map String.toList = split separator text.toList := by
  rw [cut, List.map_map]
  exact List.map_id'' (fun _ => String.toList_ofList) _

theorem glue_cut (separator : Char) (text : String) : glue separator (cut separator text) = text := by
  rw [glue, map_toList_cut, join_split, String.ofList_toList]

theorem cut_ne_nil (separator : Char) (text : String) : cut separator text ≠ [] :=
  mt List.map_eq_nil_iff.1 (split_ne_nil separator text.toList)

theorem cut_of_notMem {text : String} (h : separator ∉ text.toList) : cut separator text = [text] := by
  rw [cut, split_of_notMem h, List.map_singleton, String.ofList_toList]

theorem cut_append {mark : String} (hmark : mark.toList = [separator]) (front back : String) :
    cut separator (front ++ mark ++ back) = cut separator front ++ cut separator back := by
  rw [cut, String.toList_append, String.toList_append, hmark, List.append_assoc, List.singleton_append,
    split_append_cons, List.map_append]
  rfl

/-- What holds no separator stays in one piece. -/
theorem exists_split_append {front : List Char} (h : separator ∉ front) (back : List Char) :
    ∃ piece pieces, split separator (front ++ back) = (front ++ piece) :: pieces := by
  induction front with
  | nil => exact List.exists_cons_of_ne_nil (split_ne_nil separator back)
  | cons c front ih =>
    rw [List.mem_cons, not_or] at h
    obtain ⟨piece, pieces, hsplit⟩ := ih h.2
    refine ⟨piece, pieces, ?_⟩
    rw [List.cons_append, split, if_neg (Ne.symm h.1), hsplit]
    rfl

theorem exists_cut_append {front : String} (h : separator ∉ front.toList) (back : String) :
    ∃ piece pieces, cut separator (front ++ back) = (front ++ piece) :: pieces := by
  obtain ⟨piece, pieces, hsplit⟩ := exists_split_append h back.toList
  refine ⟨String.ofList piece, pieces.map String.ofList, ?_⟩
  rw [cut, String.toList_append, hsplit, List.map_cons, String.ofList_append, String.ofList_toList]

/-- **A text begins as its first piece does,** unless that is empty. -/
theorem head?_of_cut {text piece : String} {pieces : List String}
    (h : cut separator text = piece :: pieces) (hne : piece ≠ "") :
    text.toList.head? = piece.toList.head? := by
  have hpieces := map_toList_cut separator text
  rw [h, List.map_cons] at hpieces
  rw [← join_split separator text.toList, ← hpieces]
  cases hchars : piece.toList with
  | nil => exact absurd (String.toList_eq_nil_iff.1 hchars) hne
  | cons c cs =>
    cases pieces with
    | nil => rfl
    | cons next pieces => rfl

end ArcCoverage.Text
