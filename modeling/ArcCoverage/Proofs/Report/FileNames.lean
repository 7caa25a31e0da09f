/-
# Slashes in the names of report files

The name of a report is put behind the output directory, so a slash in it would lead elsewhere. A name
is made of three kinds of parts:

| part | has a slash | lemma |
| --- | --- | --- |
| a path that is preserved | never | `OutputName.slash_notMem_preserved` |
| a hash | never | `OutputName.slash_notMem_hashOf` |
| the base name of a path | if the path has one, but no file name | `Path.slash_mem_baseName_iff` |

Paths of the last kind are `/`, `a/..` and the like (`Path.IsNameless`): what has no file name is its
own base name. `OutputName.slash_mem_ofFile_iff` says for all options whether such a path gets into a
name.
-/
import ArcCoverage.Proofs.Text.Pieces
import ArcCoverage.Report.OutputName
import Mathlib.Tactic.SplitIfs

namespace ArcCoverage

namespace Path

/-- **A path with a slash and without a file name.** -/
def IsNameless (path : List Char) : Prop := '/' ∈ path ∧ fileName path = none

instance (path : List Char) : Decidable (IsNameless path) := inferInstanceAs (Decidable (_ ∧ _))

/-- A file name is a piece between slashes. -/
theorem slash_notMem_fileName {path name : List Char} (h : fileName path = some name) :
    '/' ∉ name := by
  unfold fileName at h
  cases htail : tail path with
  | nil =>
    rw [htail] at h
    cases h
  | cons piece pieces =>
    rw [htail] at h
    have hpiece : piece ∈ tail path := by
      rw [htail]
      exact List.mem_cons_self
    have hsplit : piece ∈ Text.split '/' (cut path).2 :=
      List.mem_reverse.1 ((List.dropWhile_sublist _).subset hpiece)
    dsimp only at h
    split_ifs at h
    obtain rfl := Option.some.inj h
    exact Text.notMem_of_mem_split hsplit

/-- **A base name has a slash** only if it is a whole path, for want of a file name. -/
theorem slash_mem_baseName_iff (path : List Char) : '/' ∈ baseName path ↔ IsNameless path := by
  unfold baseName IsNameless
  cases hname : fileName path with
  | none => simp
  | some name => simp [slash_notMem_fileName hname]

end Path

namespace Text

theorem digitChar_ne_slash {n : Nat} (h : n < 16) : n.digitChar ≠ '/' := by
  have hdigits : ∀ n < 16, n.digitChar ≠ '/' := by decide
  exact hdigits n h

theorem slash_notMem_hexDigits (width n : Nat) : '/' ∉ hexDigits width n := by
  have hdigits : '/' ∉ Nat.toDigits 16 n := by
    induction n using Nat.strongRecOn with
    | ind n ih =>
      rw [Nat.toDigits_eq_if (by decide)]
      split_ifs with hlast
      · rw [List.mem_singleton]
        exact (digitChar_ne_slash hlast).symm
      · have hsmaller : n / 16 < n := by omega
        rw [List.mem_append, List.mem_singleton, not_or]
        exact ⟨ih _ hsmaller, (digitChar_ne_slash (Nat.mod_lt _ (by decide))).symm⟩
  rw [hexDigits, List.mem_append, not_or]
  exact ⟨fun hzero => absurd (List.eq_of_mem_replicate hzero) (by decide), hdigits⟩

end Text

namespace OutputName

theorem slash_notMem_hashOf (name : List Char) : '/' ∉ hashOf name := by
  rw [hashOf, Sha256.State.text, String.toList_ofList, List.mem_flatMap]
  rintro ⟨word, -, hword⟩
  exact Text.slash_notMem_hexDigits _ _ hword

/-- A piece is shown with its own characters, or with `^`. -/
theorem notMem_piece {c : Char} {s : List Char} (hc : c ≠ '^') (h : c ∉ s) : c ∉ piece s := by
  unfold piece
  split_ifs
  · rwa [List.mem_singleton]
  · exact h

/-- **A preserved path has no slash:** its pieces have none, and others stand between them. -/
theorem slash_notMem_preserved (path : List Char) : '/' ∉ preserved path := by
  intro hslash
  rcases Text.mem_join hslash with hslash | ⟨shown, hshown, hslash⟩
  · exact absurd hslash (by decide)
  · obtain ⟨s, hs, rfl⟩ := List.mem_map.1 hshown
    exact notMem_piece (by decide) (Text.notMem_of_mem_split (List.mem_filter.1 hs).1) hslash

theorem slash_mem_flatten_iff (options : Options) (path : List Char) :
    '/' ∈ flatten options path ↔ options.preservePaths = false ∧ Path.IsNameless path := by
  unfold flatten
  cases options.preservePaths with
  | true => simp [slash_notMem_preserved]
  | false => simp [Path.slash_mem_baseName_iff]

theorem slash_mem_pair_iff (a b : List Char) : '/' ∈ pair a b ↔ '/' ∈ a ∨ '/' ∈ b := by
  simp [pair]

/-- Whether the name of a covered file stands behind that of the main source. -/
def isPrefixed (options : Options) (source file : List Char) : Bool :=
  options.longFileNames && file != source

/-- Whether a name is shortened by its hash. -/
def isHashed (options : Options) : Bool :=
  options.hashFilenames && (options.longFileNames || options.preservePaths)

/-- **The options and paths whose report has a slash in its name:** base names are used, and one of
them belongs to a path without a file name. -/
def Escapes (options : Options) (source file : List Char) : Prop :=
  if isHashed options then Path.IsNameless file
  else options.preservePaths = false ∧
    (Path.IsNameless file ∨ isPrefixed options source file = true ∧ Path.IsNameless source)

instance (options : Options) (source file : List Char) : Decidable (Escapes options source file) :=
  inferInstanceAs (Decidable (ite _ _ _))

theorem slash_mem_plain_iff (options : Options) (source file : List Char) :
    '/' ∈ plain options source file ↔ options.preservePaths = false ∧
      (Path.IsNameless file ∨ isPrefixed options source file = true ∧ Path.IsNameless source) := by
  show '/' ∈ (if isPrefixed options source file then _ else _) ↔ _
  split_ifs with hprefixed
  · simp only [slash_mem_pair_iff, slash_mem_flatten_iff, hprefixed, true_and, ← and_or_left, or_comm]
  · simp only [slash_mem_flatten_iff, hprefixed, Bool.false_eq_true, false_and, or_false]

/-- **Which reports have a slash in their name.** -/
theorem slash_mem_ofFile_iff (options : Options) (source file : String) :
    '/' ∈ (ofFile options source file).toList ↔ Escapes options source.toList file.toList := by
  have hextension : '/' ∉ ".gcov".toList := by decide
  rw [ofFile, String.toList_ofList, List.mem_append, or_iff_left hextension]
  show '/' ∈ (if isHashed options then _ else _) ↔ if isHashed options then _ else _
  split_ifs with hhashed
  · rw [slash_mem_pair_iff, or_iff_left (slash_notMem_hashOf _), Path.slash_mem_baseName_iff]
  · exact slash_mem_plain_iff options source.toList file.toList

end OutputName

end ArcCoverage
