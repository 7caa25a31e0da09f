/-
# Artifacts are named for their source

A path is spelled in many ways, and its components are what it denotes. The name of an artifact is put
together from pieces of another path's spelling; this is what it denotes:

| place | components of the artifact's name |
| --- | --- |
| beside the source | the source's, with the extension of the last one replaced |
| in a directory | the directory's, and the source's file name with its extension replaced |
| that of an object file | as if the object file were the source |

An extension is what follows the last dot of a file name, also if nothing stands before the dot; where
there is no dot, the new one is put behind the name (`Path.IsBase`). Two facts about components settle
this: a name joined to a path is one component more (`Path.components_join`), and a path has those of its
parent and its file name (`Path.components_of_fileName`).
-/
import ArcCoverage.Artifact.Name
import ArcCoverage.Proofs.Report.FileNames
import ArcCoverage.Proofs.Storage.Entries
import Mathlib.Data.List.TakeWhile

namespace ArcCoverage

namespace Text

variable {separator : Char}

/-- Pieces joined, and others behind them. -/
theorem join_append {front behind : List (List Char)} (hfront : front ≠ []) (hbehind : behind ≠ []) :
    join separator (front ++ behind) = join separator front ++ separator :: join separator behind := by
  induction front with
  | nil => exact absurd rfl hfront
  | cons piece pieces ih =>
    cases pieces with
    | nil => rw [List.singleton_append, join_cons _ _ hbehind, join]
    | cons next pieces =>
      rw [List.cons_append, join_cons _ _ (by simp), ih (List.cons_ne_nil _ _),
        join_cons _ _ (List.cons_ne_nil _ _), List.append_assoc, List.cons_append]

end Text

namespace Path

variable {path directory name rest : List Char}

/-! ## Components -/

/-- The pieces of a text between slashes that are components. -/
def namedPieces (rest : List Char) : List (List Char) := (Text.split '/' rest).filter (!isBlank ·)

theorem components_eq (path : List Char) : components path =
    startComponents (cut path).1 ++ (namedPieces (cut path).2).map .ofPiece := rfl

/-- A file name is a name for an entry of a directory. -/
theorem isEntryName_of_fileName (h : fileName path = some name) : IsEntryName name := by
  have hslash := slash_notMem_fileName h
  unfold fileName at h
  cases htail : tail path with
  | nil =>
    rw [htail] at h
    cases h
  | cons piece pieces =>
    have hblank : isBlank piece = false := by
      have hhead := List.head?_dropWhile_not isBlank (piecesFromEnd (cut path).2)
      rw [← tail, htail] at hhead
      simpa using hhead
    rw [htail] at h
    dsimp only at h
    split_ifs at h with hup
    obtain rfl := Option.some.inj h
    rw [isBlank, Bool.or_eq_false_iff, beq_eq_false_iff_ne, beq_eq_false_iff_ne] at hblank
    exact ⟨hslash, hblank.1, hblank.2, hup⟩

/-- A slash at the end is no component. -/
theorem namedPieces_slash (rest : List Char) : namedPieces (rest ++ ['/']) = namedPieces rest := by
  rw [namedPieces, Text.split_append_cons, List.filter_append]
  exact List.append_nil _

theorem namedPieces_of_isEntryName (h : IsEntryName name) : namedPieces name = [name] := by
  have hname : (!isBlank name) = true := by
    rw [Bool.not_eq_true', isBlank, Bool.or_eq_false_iff, beq_eq_false_iff_ne, beq_eq_false_iff_ne]
    exact ⟨h.nonempty, h.here⟩
  rw [namedPieces, Text.split_of_notMem h.slash]
  exact List.filter_cons_of_pos hname

/-- A name behind a slash is one piece more. -/
theorem namedPieces_append (h : IsEntryName name) (hrest : rest = [] ∨ rest.getLast? = some '/') :
    namedPieces (rest ++ name) = namedPieces rest ++ [name] := by
  rcases hrest with rfl | hlast
  · exact namedPieces_of_isEntryName h
  · obtain ⟨front, rfl⟩ := List.getLast?_eq_some_iff.1 hlast
    rw [namedPieces_slash, List.append_assoc, List.singleton_append, namedPieces,
      Text.split_append_cons, List.filter_append]
    exact congrArg (namedPieces front ++ ·) (namedPieces_of_isEntryName h)

/-- **A path is cut where it was,** if what is put behind it does not prolong its last piece. -/
theorem cut_append (hne : path ≠ []) (h : path.getLast? = some '/' ∨ rest.head? = some '/') :
    cut (path ++ rest) = ((cut path).1, (cut path).2 ++ rest) := by
  fun_cases cut path with
  | case1 path => rfl
  | case2 =>
    obtain ⟨rest, rfl⟩ : ∃ rest', rest = '/' :: rest' := by
      cases rest with
      | nil => simp at h
      | cons c rest => exact ⟨rest, by simpa using h⟩
    rfl
  | case3 path => rfl
  | case4 _ hroot hdot hhere =>
    -- the first characters are those of the path, and no start
    unfold cut
    split
    · next heq =>
      rcases List.append_eq_cons_iff.1 heq with ⟨hnil, -⟩ | ⟨p, rfl, -⟩
      · exact absurd hnil hne
      · exact absurd rfl (hroot p)
    · next heq =>
      rcases List.append_eq_cons_iff.1 heq with ⟨hnil, -⟩ | ⟨p, rfl, hp⟩
      · exact absurd hnil hne
      · obtain ⟨rfl, -⟩ := List.append_eq_nil_iff.1 hp.symm
        exact absurd rfl hdot
    · next heq =>
      rcases List.append_eq_cons_iff.1 heq with ⟨hnil, -⟩ | ⟨p, rfl, hp⟩
      · exact absurd hnil hne
      · rcases List.append_eq_cons_iff.1 hp.symm with ⟨rfl, -⟩ | ⟨q, rfl, -⟩
        · exact absurd rfl hdot
        · exact absurd rfl (hhere q)
    · rfl

/-- The start of a path, and as many of its pieces as there are. -/
theorem cut_start_append (h : rest = [] ∨ ∃ behind, (cut path).2 = rest ++ '/' :: behind) :
    cut ((cut path).1 ++ rest) = ((cut path).1, rest) := by
  rcases h with rfl | ⟨behind, hbehind⟩
  · fun_cases cut path <;> rfl
  · have hpath : (cut path).1 ++ rest ++ '/' :: behind = path := by
      rw [List.append_assoc, ← hbehind, append_cut]
    by_cases hne : (cut path).1 ++ rest = []
    · obtain ⟨hstart, rfl⟩ := List.append_eq_nil_iff.1 hne
      rw [hstart]
      rfl
    · have hcut := @cut_append _ ('/' :: behind) hne (.inr rfl)
      rw [hpath] at hcut
      have hstart : (cut ((cut path).1 ++ rest)).1 = (cut path).1 := (congrArg Prod.fst hcut).symm
      have happend := append_cut ((cut path).1 ++ rest)
      rw [hstart] at happend
      exact Prod.ext hstart (List.append_cancel_left happend)

theorem components_slash (hne : path ≠ []) : components (path ++ ['/']) = components path := by
  rw [components_eq, cut_append hne (.inr rfl), namedPieces_slash, ← components_eq]

/-- A name for an entry has no start to be cut off. -/
theorem cut_of_isEntryName (h : IsEntryName name) : cut name = ([], name) := by
  fun_cases cut name with
  | case1 rest => exact absurd List.mem_cons_self h.slash
  | case2 => exact absurd rfl h.here
  | case3 rest => exact absurd (List.mem_cons_of_mem _ List.mem_cons_self) h.slash
  | case4 => rfl

/-- **A name joined to a path** is one component more. -/
theorem components_join (h : IsEntryName name) (path : List Char) :
    components (join path name) = components path ++ [.name name] := by
  have hpiece : Component.ofPiece name = .name name := if_neg h.up
  have happend {front : List Char} (hne : front ≠ []) (hlast : front.getLast? = some '/') :
      components (front ++ name) = components front ++ [.name name] := by
    have hrest : (cut front).2 = [] ∨ (cut front).2.getLast? = some '/' := by
      refine or_iff_not_imp_left.2 fun hrest => ?_
      rwa [← append_cut front, List.getLast?_append, List.getLast?_eq_some_getLast hrest,
        Option.some_or, ← List.getLast?_eq_some_getLast hrest] at hlast
    rw [components_eq, cut_append hne (.inl hlast), namedPieces_append h hrest, List.map_append,
      ← List.append_assoc, ← components_eq, List.map_singleton, hpiece]
  rw [join, h.isAbsolute_eq, if_neg Bool.false_ne_true]
  by_cases hnil : path = []
  · subst hnil
    rw [if_pos (by decide), List.nil_append, components_eq, cut_of_isEntryName h,
      namedPieces_of_isEntryName h, List.map_singleton, hpiece]
    rfl
  · split_ifs with hlast
    · exact happend hnil (by simpa [hnil] using hlast)
    · rw [← List.singleton_append, ← List.append_assoc, happend (by simp) (by simp), components_slash hnil]

/-- The last piece that is a component, the pieces before it and those behind. -/
theorem split_of_fileName (h : fileName path = some name) :
    ∃ before between behind, Text.split '/' (cut path).2 = before ++ between ++ name :: behind ∧
      parent path = (cut path).1 ++ Text.join '/' before ∧ (∀ piece ∈ between, isBlank piece) ∧
      (∀ piece ∈ behind, isBlank piece) := by
  unfold fileName at h
  cases htail : tail path with
  | nil =>
    rw [htail] at h
    cases h
  | cons piece pieces =>
    rw [htail] at h
    dsimp only at h
    split_ifs at h
    obtain rfl := Option.some.inj h
    have hpieces := List.takeWhile_append_dropWhile (p := isBlank) (l := pieces)
    have hsplit := List.takeWhile_append_dropWhile (p := isBlank) (l := piecesFromEnd (cut path).2)
    rw [← tail, htail, piecesFromEnd] at hsplit
    refine ⟨(pieces.dropWhile isBlank).reverse, (pieces.takeWhile isBlank).reverse,
      ((Text.split '/' (cut path).2).reverse.takeWhile isBlank).reverse, ?_, ?_, ?_, ?_⟩
    · have hreverse := congrArg List.reverse hsplit
      rw [List.reverse_reverse, List.reverse_append, List.reverse_cons, List.append_assoc] at hreverse
      rw [← List.reverse_append, hpieces]
      exact hreverse.symm
    · rw [parent, htail]
    · intro p hp
      exact List.mem_takeWhile_imp (List.mem_reverse.1 hp)
    · intro p hp
      exact List.mem_takeWhile_imp (List.mem_reverse.1 hp)

/-- **A path has the components of its parent,** and its file name. -/
theorem components_of_fileName (h : fileName path = some name) :
    components path = components (parent path) ++ [.name name] := by
  have hname := isEntryName_of_fileName h
  have hpiece : Component.ofPiece name = .name name := if_neg hname.up
  obtain ⟨before, between, behind, hsplit, hparent, hbetween, hbehind⟩ := split_of_fileName h
  have hblank {pieces : List (List Char)} (hpieces : ∀ piece ∈ pieces, isBlank piece) :
      pieces.filter (!isBlank ·) = [] :=
    List.filter_eq_nil_iff.2 fun piece hpiece => by simp [hpieces piece hpiece]
  have hfilter : namedPieces (cut path).2 = before.filter (!isBlank ·) ++ [name] := by
    have hkept : (name :: behind).filter (!isBlank ·) = [name] := by
      have hsingle := namedPieces_of_isEntryName hname
      rw [namedPieces, Text.split_of_notMem hname.slash] at hsingle
      rw [← List.singleton_append, List.filter_append, hsingle, hblank hbehind, List.append_nil]
    rw [namedPieces, hsplit, List.filter_append, List.filter_append, hblank hbetween, List.append_nil,
      hkept]
  have hcut : cut (parent path) = ((cut path).1, Text.join '/' before) := by
    rw [hparent]
    refine cut_start_append ?_
    by_cases hnil : before = []
    · exact .inl (by rw [hnil]; rfl)
    · refine .inr ⟨Text.join '/' (between ++ name :: behind), ?_⟩
      rw [← Text.join_append hnil (by simp), ← List.append_assoc, ← hsplit, Text.join_split]
  have hbefore : namedPieces (Text.join '/' before) = before.filter (!isBlank ·) := by
    by_cases hnil : before = []
    · rw [hnil]
      rfl
    · have hslash : ∀ piece ∈ before, '/' ∉ piece := fun piece hpiece => by
        have hmem : piece ∈ Text.split '/' (cut path).2 := by rw [hsplit]; simp [hpiece]
        exact Text.notMem_of_mem_split hmem
      rw [namedPieces, Text.split_join hnil hslash]
  rw [components_eq, hfilter, components_eq, hcut, hbefore, List.map_append, List.append_assoc,
    List.map_singleton, hpiece]

/-! ## Extensions -/

/-- **A name split at its last dot.** -/
theorem splitLastDot_append_cons {base extension : List Char} (h : '.' ∉ extension) :
    splitLastDot (base ++ '.' :: extension) = some (base, extension) := by
  have hpieces : (Text.split '.' (base ++ '.' :: extension)).reverse =
      extension :: (Text.split '.' base).reverse := by
    rw [Text.split_append_cons, Text.split_of_notMem h, List.reverse_append]
    rfl
  rw [splitLastDot, hpieces]
  cases hbase : (Text.split '.' base).reverse with
  | nil => exact absurd (List.reverse_eq_nil_iff.1 hbase) (Text.split_ne_nil _ _)
  | cons piece pieces =>
    dsimp only
    rw [← hbase, List.reverse_reverse, Text.join_split]

theorem splitLastDot_of_notMem (h : '.' ∉ name) : splitLastDot name = none := by
  rw [splitLastDot, Text.split_of_notMem h]
  rfl

/-- **A file name up to its last dot,** or all of it if it has none. -/
inductive IsBase : List Char → List Char → Prop
  | cut (base : List Char) {extension : List Char} (h : '.' ∉ extension) :
      IsBase (base ++ '.' :: extension) base
  | whole {name : List Char} (h : '.' ∉ name) : IsBase name name

/-- Every name has a base. -/
theorem exists_isBase (name : List Char) : ∃ base, IsBase name base := by
  by_cases h : '.' ∈ name
  · obtain ⟨front, behind, hname, hfront⟩ := List.eq_append_cons_of_mem (List.mem_reverse.2 h)
    have hsplit : name = behind.reverse ++ '.' :: front.reverse := by
      rw [← List.reverse_reverse name, hname, List.reverse_append, List.reverse_cons,
        List.append_assoc, List.singleton_append]
    exact ⟨behind.reverse, hsplit ▸ .cut _ (mt List.mem_reverse.1 hfront)⟩
  · exact ⟨name, .whole h⟩

theorem fileStem_of_isBase {base : List Char} (h : fileName path = some name) (hbase : IsBase name base) :
    fileStem path = base := by
  rw [fileStem, h]
  cases hbase with
  | cut base hextension =>
    dsimp only
    rw [splitLastDot_append_cons hextension]
  | whole hname =>
    dsimp only
    rw [splitLastDot_of_notMem hname]

/-- What is put behind a joined path is put behind the name in it. -/
theorem join_append_right {behind more : List Char} (h : '/' ∉ behind ++ more) (path : List Char) :
    join path behind ++ more = join path (behind ++ more) := by
  have hrelative {front : List Char} (hfront : '/' ∉ front) : isAbsolute front = false := by
    cases front with
    | nil => rfl
    | cons c front =>
      refine beq_eq_false_iff_ne.2 fun hslash => hfront ?_
      obtain rfl := Option.some.inj hslash
      exact List.mem_cons_self
  have hbehind : '/' ∉ behind := fun hslash => h (List.mem_append_left more hslash)
  rw [join, join, hrelative hbehind, hrelative h, if_neg Bool.false_ne_true, if_neg Bool.false_ne_true]
  split_ifs
  · exact List.append_assoc _ _ _
  · rw [List.append_assoc, List.cons_append]

end Path

/-! ## Artifacts -/

/-- A name with the extension of an artifact is a name for an entry. -/
theorem FileKind.isEntryName_append (kind : FileKind) {base : List Char} (h : '/' ∉ base) :
    Path.IsEntryName (base ++ kind.extension.toList) := by
  have hextension : '/' ∉ kind.extension.toList := by cases kind <;> decide
  have hlength : kind.extension.toList.length = 5 := by cases kind <;> rfl
  have hlonger {other : List Char} (hother : other.length < 5) :
      base ++ kind.extension.toList ≠ other := by
    rintro rfl
    rw [List.length_append] at hother
    omega
  exact ⟨by rw [List.mem_append, not_or]; exact ⟨h, hextension⟩, hlonger (by decide),
    hlonger (by decide), hlonger (by decide)⟩

namespace ObjectPlace

variable {source : String} {name base : List Char}

/-- The components of a path joined with a file name's base, once an artifact's extension is put behind
them. -/
theorem components_join_extension (kind : FileKind) (hslash : '/' ∉ base) (path : List Char) :
    Path.components (Path.join path base ++ kind.extension.toList) =
      Path.components path ++ [.name (base ++ kind.extension.toList)] := by
  have hname := kind.isEntryName_append hslash
  rw [Path.join_append_right hname.slash, Path.components_join hname]

/-- **Artifacts have their source's name with another extension.** Of a source with a file name,

* what is left out of its stem stands behind the last dot of the name, and nothing else is left out;
* a name that is not given is the source's path with the last extension replaced, or a new one behind
  it; in a directory it is the source's file name that is changed so, wherever the source is;
* an object file is named as a source of its name would be. -/
theorem artifacts_replace_extension (hname : Path.fileName source.toList = some name) :
    (∀ base extension, name = base ++ '.' :: extension → '.' ∉ extension →
      Path.components ((besideSource.stem source).toList ++ '.' :: extension) =
        Path.components source.toList) ∧
      ('.' ∉ name →
        Path.components (besideSource.stem source).toList = Path.components source.toList) ∧
      (∃ base, Path.IsBase name base ∧ ∀ kind : FileKind, ∀ given ∈ [none, some ""],
        Path.components (artifactName (besideSource.stem source) given kind).toList =
            (Path.components source.toList).dropLast ++ [.name (base ++ kind.extension.toList)] ∧
          ∀ path, Path.components (artifactName ((directory path).stem source) given kind).toList =
            Path.components path.toList ++ [.name (base ++ kind.extension.toList)]) ∧
      (∀ path other, Path.fileName other.toList = some name →
        (directory path).stem other = (directory path).stem source) ∧
      ∀ path given kind, artifactName ((object path).stem source) given kind =
        artifactName (besideSource.stem path) given kind := by
  have hentry := Path.isEntryName_of_fileName hname
  have hcomponents := Path.components_of_fileName hname
  have hstem {base : List Char} (hbase : Path.IsBase name base) : (besideSource.stem source).toList =
      Path.join (Path.parent source.toList) base := by
    rw [stem, String.toList_ofList, stemBeside, Path.fileStem_of_isBase hname hbase]
  refine ⟨?_, ?_, ?_, ?_, fun _ _ _ => rfl⟩
  · rintro base extension rfl hdot
    rw [hstem (.cut base hdot), Path.join_append_right hentry.slash, Path.components_join hentry,
      hcomponents]
  · intro hdot
    rw [hstem (.whole hdot), Path.components_join hentry, hcomponents]
  · obtain ⟨base, hbase⟩ := Path.exists_isBase name
    refine ⟨base, hbase, fun kind given hgiven => ?_⟩
    have hslash : '/' ∉ base := by
      cases hbase with
      | cut base hdot => exact fun hmem => hentry.slash (List.mem_append_left _ hmem)
      | whole hdot => exact hentry.slash
    have hdefault (stem : String) : (artifactName stem given kind).toList =
        stem.toList ++ kind.extension.toList := by
      rw [← String.toList_append]
      rcases List.mem_cons.1 hgiven with rfl | hgiven
      · rfl
      · obtain rfl := List.mem_singleton.1 hgiven
        rfl
    refine ⟨?_, fun path => ?_⟩
    · rw [hdefault, hstem hbase, components_join_extension kind hslash, hcomponents,
        List.dropLast_concat]
    · rw [hdefault, stem, String.toList_ofList, Path.fileStem_of_isBase hname hbase,
        components_join_extension kind hslash]
  · intro path other hother
    rw [stem, stem, Path.fileStem, Path.fileStem, hother, hname]

/-- **Of a name that begins with a dot** and has another one, in a path with slashes and dots around it.
Its stem keeps the first dot, and the name of an artifact does so too. -/
theorem artifacts_replace_extension_of_dots :
    let source := "./src//.test.c/."
    Path.fileName source.toList = some ".test.c".toList ∧
      besideSource.stem source = "./src/.test" ∧
      Path.components ((besideSource.stem source).toList ++ '.' :: ['c']) =
        Path.components source.toList ∧
      Path.components (artifactName (besideSource.stem source) none .notes).toList =
        [.here, .name "src".toList, .name ".test.gcno".toList] ∧
      Path.components (artifactName ((directory "out/..").stem source) none .data).toList =
        [.name "out".toList, .up, .name ".test.gcda".toList] := by
  intro source
  have hname : Path.fileName source.toList = some ".test.c".toList := by decide +kernel
  obtain ⟨hsplit, -⟩ := artifacts_replace_extension hname
  exact ⟨hname, by decide +kernel, hsplit ".test".toList ['c'] (by decide) (by decide),
    by decide +kernel, by decide +kernel⟩

end ObjectPlace

end ArcCoverage
