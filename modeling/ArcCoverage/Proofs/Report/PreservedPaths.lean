/-
# Preserved paths tell files apart

With paths preserved, a name is made of the pieces of a path: `#` stands for the slashes between them,
`^` for `..`, and `.` is left out. So paths may share a name if they hold `#` or a piece `^` or `.`.
For all others (`Path.IsPlain`) a name is read back piece by piece, in each of its three shapes:

| name | example | cut at `#` |
| --- | --- | --- |
| a relative path | `inc#b.h` | no empty piece |
| an absolute path | `#inc#b.h` | an empty piece in front |
| two paths | `main.c###inc#b.h` | an empty piece behind the first path |

The first empty piece behind the front therefore parts the two paths (`OutputName.split_pair`). A name
without one is that of the main source itself.
-/
import ArcCoverage.Proofs.Report.FileNames

namespace ArcCoverage

/-- **A path that is read back from its name.** Only the first of its pieces may be empty, and not if it
is the only one. -/
structure Path.IsPlain (path : List Char) : Prop where
  shown : ∀ piece ∈ Text.split '/' path, piece ≠ ['.'] ∧ piece ≠ ['^'] ∧ '#' ∉ piece
  inner : [] ∉ (Text.split '/' path).tail
  last : (Text.split '/' path).getLast? ≠ some []

instance (path : List Char) : Decidable (Path.IsPlain path) :=
  decidable_of_iff
    ((∀ piece ∈ Text.split '/' path, piece ≠ ['.'] ∧ piece ≠ ['^'] ∧ '#' ∉ piece) ∧
      [] ∉ (Text.split '/' path).tail ∧ (Text.split '/' path).getLast? ≠ some [])
    ⟨fun ⟨hshown, hinner, hlast⟩ => ⟨hshown, hinner, hlast⟩, fun h => ⟨h.shown, h.inner, h.last⟩⟩

/-- What stands in front of an element's first occurrence is determined by the whole. -/
theorem append_cons_inj_of_first {α : Type} {x : α} {front front' rest rest' : List α}
    (h : x ∉ front) (h' : x ∉ front') (heq : front ++ x :: rest = front' ++ x :: rest') :
    front = front' ∧ rest = rest' := by
  induction front generalizing front' with
  | nil =>
    cases front' with
    | nil => exact ⟨rfl, (List.cons.inj heq).2⟩
    | cons y front' =>
      obtain rfl := (List.cons.inj heq).1
      exact absurd List.mem_cons_self h'
  | cons y front ih =>
    cases front' with
    | nil =>
      obtain rfl := (List.cons.inj heq).1
      exact absurd List.mem_cons_self h
    | cons y' front' =>
      obtain ⟨rfl, htail⟩ := List.cons.inj heq
      rw [List.mem_cons, not_or] at h h'
      obtain ⟨rfl, rfl⟩ := ih h.2 h'.2 htail
      exact ⟨rfl, rfl⟩

namespace OutputName

open ArcCoverage.Path (IsPlain)

variable {options : Options} {path path' source source' file file' : List Char}

/-! ## One path -/

/-- The pieces of a path as a name shows them. -/
def shownPieces (path : List Char) : List (List Char) := (Text.split '/' path).map piece

theorem piece_eq_nil_iff (s : List Char) : piece s = [] ↔ s = [] := by
  unfold piece
  split_ifs with hup
  · subst hup
    decide
  · rfl

/-- The piece that is shown so. -/
def readPiece (shown : List Char) : List Char := if shown = ['^'] then ['.', '.'] else shown

/-- **A piece is read back,** unless it is `^`. -/
theorem readPiece_piece {s : List Char} (h : s ≠ ['^']) : readPiece (piece s) = s := by
  unfold piece
  split_ifs with hup
  · rw [hup]
    rfl
  · exact if_neg h

theorem preserved_eq (h : IsPlain path) : preserved path = Text.join '#' (shownPieces path) := by
  have hall : (Text.split '/' path).filter (· != ['.']) = Text.split '/' path :=
    List.filter_eq_self.2 fun s hs => bne_iff_ne.2 (h.shown s hs).1
  rw [preserved, hall, shownPieces]

/-- **The name of a plain path is cut** into its pieces. -/
theorem split_preserved (h : IsPlain path) : Text.split '#' (preserved path) = shownPieces path := by
  rw [preserved_eq h]
  refine Text.split_join ?_ fun shown hshown => ?_
  · rw [shownPieces, ne_eq, List.map_eq_nil_iff]
    exact Text.split_ne_nil _ _
  · obtain ⟨s, hs, rfl⟩ := List.mem_map.1 hshown
    exact notMem_piece (by decide) (h.shown s hs).2.2

example : Text.split '#' (preserved "/../b.c".toList) = [[], ['^'], "b.c".toList] := by decide

/-- **A plain path is read back** from its pieces. -/
theorem join_map_readPiece (h : IsPlain path) :
    Text.join '/' ((shownPieces path).map readPiece) = path := by
  have hpieces : (shownPieces path).map readPiece = Text.split '/' path := by
    rw [shownPieces, List.map_map]
    exact (List.map_congr_left fun s hs => readPiece_piece (h.shown s hs).2.1).trans (List.map_id _)
  rw [hpieces, Text.join_split]

theorem shownPieces_inj (h : IsPlain path) (h' : IsPlain path')
    (heq : shownPieces path = shownPieces path') : path = path' := by
  rw [← join_map_readPiece h, heq, join_map_readPiece h']

/-- **Plain paths are preserved apart.** -/
theorem preserved_inj (h : IsPlain path) (h' : IsPlain path')
    (heq : preserved path = preserved path') : path = path' := by
  have hcut := congrArg (Text.split '#') heq
  rw [split_preserved h, split_preserved h'] at hcut
  exact shownPieces_inj h h' hcut

/-! ## Two paths -/

/-- **A name of two paths is cut** into the pieces of both, with an empty one between them. -/
theorem split_pair (a b : List Char) :
    Text.split '#' (pair a b) = Text.split '#' a ++ [] :: Text.split '#' b := by
  rw [pair, Text.split_append_cons]
  rfl

/-- The pieces of a plain path behind its first are not empty. -/
theorem exists_shownPieces_eq (h : IsPlain path) :
    ∃ first rest, shownPieces path = first :: rest ∧ [] ∉ rest := by
  cases hsplit : Text.split '/' path with
  | nil => exact absurd hsplit (Text.split_ne_nil _ _)
  | cons first rest =>
    have hinner := h.inner
    rw [hsplit, List.tail_cons] at hinner
    refine ⟨piece first, rest.map piece, by rw [shownPieces, hsplit, List.map_cons], ?_⟩
    rintro hnil
    obtain ⟨s, hs, hempty⟩ := List.mem_map.1 hnil
    rw [(piece_eq_nil_iff s).1 hempty] at hs
    exact hinner hs

/-- **Names of two plain paths** are those of the same paths only. -/
theorem pair_preserved_inj (hsource : IsPlain source) (hsource' : IsPlain source')
    (hfile : IsPlain file) (hfile' : IsPlain file')
    (heq : pair (preserved source) (preserved file) = pair (preserved source') (preserved file')) :
    source = source' ∧ file = file' := by
  have hcut := congrArg (Text.split '#') heq
  rw [split_pair, split_pair, split_preserved hsource, split_preserved hsource', split_preserved hfile,
    split_preserved hfile'] at hcut
  obtain ⟨first, rest, hshown, hrest⟩ := exists_shownPieces_eq hsource
  obtain ⟨first', rest', hshown', hrest'⟩ := exists_shownPieces_eq hsource'
  rw [hshown, hshown', List.cons_append, List.cons_append] at hcut
  obtain ⟨hfirst, hbehind⟩ := List.cons.inj hcut
  obtain ⟨hsame, hfiles⟩ := append_cons_inj_of_first hrest hrest' hbehind
  refine ⟨shownPieces_inj hsource hsource' ?_, shownPieces_inj hfile hfile' hfiles⟩
  rw [hshown, hshown', hfirst, hsame]

/-- **A name of two paths is no plain path's own.** -/
theorem pair_preserved_ne (hsource : IsPlain source) (hfile : IsPlain file) (hpath : IsPlain path) :
    pair (preserved source) (preserved file) ≠ preserved path := by
  intro heq
  have hcut := congrArg (Text.split '#') heq
  rw [split_pair, split_preserved hsource, split_preserved hfile, split_preserved hpath] at hcut
  obtain ⟨first, rest, hshown, -⟩ := exists_shownPieces_eq hsource
  obtain ⟨first', rest', hshown', hrest'⟩ := exists_shownPieces_eq hpath
  rw [hshown, hshown', List.cons_append] at hcut
  refine hrest' ?_
  rw [← (List.cons.inj hcut).2, List.mem_append]
  exact .inr List.mem_cons_self

/-! ## Names of report files -/

/-- The name of a covered file with its path preserved. -/
theorem plain_of_preservePaths (h : options.preservePaths = true) (source file : List Char) :
    plain options source file =
      if options.longFileNames && file != source then pair (preserved source) (preserved file)
      else preserved file := by
  unfold plain flatten
  rw [h]
  rfl

theorem plain_eq_of_ofFile_eq (hhash : options.hashFilenames = false) {source source' file file' : String}
    (heq : ofFile options source file = ofFile options source' file') :
    plain options source.toList file.toList = plain options source'.toList file'.toList := by
  have hstem := List.append_cancel_right (String.ofList_injective heq)
  unfold stem at hstem
  rwa [hhash] at hstem

/-- A name of two paths is longer than that of the first. -/
theorem pair_ne_left (a b : List Char) : pair a b ≠ a := by
  intro heq
  have hlength := congrArg List.length heq
  rw [pair, List.length_append, List.length_cons] at hlength
  omega

/-- **Files covered by one source** have names of their own. -/
theorem plain_inj_of_source (hpreserve : options.preservePaths = true) (hfile : IsPlain file)
    (hfile' : IsPlain file') (heq : plain options source file = plain options source file') :
    file = file' := by
  rw [plain_of_preservePaths hpreserve, plain_of_preservePaths hpreserve] at heq
  cases hlong : options.longFileNames with
  | false =>
    rw [hlong] at heq
    exact preserved_inj hfile hfile' heq
  | true =>
    simp only [hlong, Bool.true_and, bne_iff_ne, ne_eq, ite_not] at heq
    split_ifs at heq with hself hself' hself'
    · exact hself.trans hself'.symm
    · rw [hself] at heq
      exact absurd heq.symm (pair_ne_left _ _)
    · rw [hself'] at heq
      exact absurd heq (pair_ne_left _ _)
    · have hbehind := List.append_cancel_left heq
      exact preserved_inj hfile hfile' (List.cons.inj (List.cons.inj hbehind).2).2

/-- **Long names** tell the main source too. -/
theorem plain_inj_of_long (hpreserve : options.preservePaths = true)
    (hlong : options.longFileNames = true) (hsource : IsPlain source) (hsource' : IsPlain source')
    (hfile : IsPlain file) (hfile' : IsPlain file')
    (heq : plain options source file = plain options source' file') :
    source = source' ∧ file = file' := by
  rw [plain_of_preservePaths hpreserve, plain_of_preservePaths hpreserve, hlong] at heq
  simp only [Bool.true_and, bne_iff_ne, ne_eq, ite_not] at heq
  split_ifs at heq with hself hself'
  · have hsame := preserved_inj hfile hfile' heq
    exact ⟨hself.symm.trans (hsame.trans hself'), hsame⟩
  · exact absurd heq.symm (pair_preserved_ne hsource' hfile' hfile)
  · exact absurd heq (pair_preserved_ne hsource hfile hfile')
  · exact pair_preserved_inj hsource hsource' hfile hfile' heq

end OutputName

end ArcCoverage
