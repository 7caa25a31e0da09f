/-
# The layout of an annotated source

The rows of an annotated source stand behind its header in the order of their lines (`LaidOut`):

| row of | which | where |
| --- | --- | --- |
| a line | those of the source, and past its end those covered or with a start | by number |
| a function | those that start in the file | before the first line that is not before the start |
| a detail | those of blocks that end at the line | below it, each kind numbered from zero |

`Annotated.body` goes along the lines, and from the functions, which are in order, takes those that have
begun (`body_parted`). None is left over at the end, since each begins at or before some line that has a
row (`exists_listed`). So the row of a function parts the lines before its start from the others
(`Parted`).

Each row is a line of the text, which begins as follows, and from which numbers and names are read back:

| row of | written as |
| --- | --- |
| a line | its count and its number, in columns of nine and five |
| a function | `function` and its name |
| a call, a branch, an unconditional arc | a word for it and its number, in a column of two |
| a block | the count of the block and the number of its line |
-/
import ArcCoverage.Proofs.Report.BothFormats
import ArcCoverage.Proofs.Report.ExactGroups

namespace ArcCoverage

/-! ## What is read off a row -/

namespace Row

/-- Whether a row is that of a function. -/
def isFunction : Row → Bool
  | function .. => true
  | _ => false

/-- The line that a row belongs to. -/
def place? : Row → Option Nat
  | source line _ _ => some line
  | detail line _ _ => some line
  | _ => none

/-- The row of a source line, as it is written. -/
def sourceText? : Row → Option String
  | source line mark text => some (source line mark text).text
  | _ => none

/-- A detail of a line. -/
def detailAt? (n : Nat) : Row → Option Detail
  | detail line _ d => if line = n then some d else none
  | _ => none

/-- The number of a line's detail among those of a kind. -/
def numberAt? (n : Nat) (kind : Detail.Kind) : Row → Option Nat
  | detail line number d => if line = n ∧ d.kind = kind then some number else none
  | _ => none

/-- A detail of a line that is of a kind, as it is written. -/
def textAt? (n : Nat) (kind : Detail.Kind) : Row → Option String
  | detail line number d =>
    if line = n ∧ d.kind = kind then some (detail line number d).text else none
  | _ => none

theorem place?_of_number? {row : Row} {n : Nat} (h : row.number? = some n) : row.place? = some n := by
  cases row with
  | source => exact h
  | _ => exact absurd h nofun

end Row

/-- The blocks whose last line is a given one, among those that carry code. -/
def Profile.endingAt (p : Profile) (line : SourceLine) : List BlockId :=
  p.blockIds.filter (FileGroup.isAttributed p line)

namespace Annotated

/-- What stands in front of a source line: its count and its number. -/
def gutterOf (group : FileGroup) (n : Nat) : String :=
  Text.padLeft 9 ((group.line? n).elim "-" fun l => l.count.shown) ++ ":" ++ Text.padNat 5 n ++ ":"

/-- The line of a function: its name, how often it was entered, and what part of these entries returned
and of its blocks ran. -/
def calledText (options : Options) (f : Routine) : String :=
  let body := f.flow.bodyBlocks
  let ran := body.countP fun b => (f.flow.block b).count != 0
  "function " ++ Symbol.shown options f.name ++ " called " ++ toString f.flow.entryCount ++ " returned " ++
    toString (Percent.whole f.flow.returnCount.toNat f.flow.entryCount.toNat) ++ "% blocks executed " ++
    toString (Percent.whole ran body.length) ++ "%"

/-- The line of a block: its count, the number of the line that it ends at, and its own. -/
def blockText? (n : Nat) : Detail → Option String
  | .block b count => some (Text.padLeft 9 (if count = 0 then "$$$$$" else toString count) ++ ":" ++
      Text.padNat 5 n ++ "-block " ++ Text.padNat 2 b)
  | _ => none

/-- **A function's row parts the others:** rows above belong to lines before its start, rows below do
not, and below is the row of its start, unless that is line 0, which has none. -/
structure Parted (f : Routine) (above below : List Row) : Prop where
  earlier : ∀ n ∈ above.filterMap Row.place?, n < f.startLine
  later : ∀ n ∈ below.filterMap Row.place?, f.startLine ≤ n
  start : 0 < f.startLine → f.startLine ∈ below.filterMap Row.number?

/-- **How the rows of an annotated source are laid out.** -/
structure LaidOut (options : Options) (p : Profile) (group : FileGroup) (source : List String)
    (rows : List Row) : Prop where
  /-- The lines of the source have a row, and so have some past its end. -/
  numbers : rows.filterMap Row.number? =
    List.range' 1 source.length ++ pastEnd p group source.length
  /-- Those past the end are covered or start a function. -/
  mem_pastEnd : ∀ n, n ∈ pastEnd p group source.length ↔ source.length < n ∧
    ((∃ id, p.Covers id ⟨group.file, n⟩) ∨ ∃ f ∈ p.routines, f.file = group.file ∧ f.startLine = n)
  increase : (rows.filterMap Row.number?).Pairwise (· < ·)
  /-- The lines of the source are written behind their counts, and a mark past its end. -/
  written : rows.filterMap Row.sourceText? =
    (source.zipIdx 1).map (fun (text, n) => gutterOf group n ++ text) ++
      (pastEnd p group source.length).map fun n => gutterOf group n ++ "/*EOF*/"
  /-- Every function of the file has one row. -/
  functions : options.branchProbabilities = true → (rows.filter Row.isFunction).map some =
    group.routines.map fun i => (p.routines[i]?).map (functionRow options)
  mem_routines : ∀ i, i ∈ group.routines ↔ ∃ f, p.routines[i]? = some f ∧ f.file = group.file
  routines_in_order : group.routines.Pairwise (Order.ByKey p.startLine (· < ·))
  /-- The row of a function stands behind those of the functions before it, and parts the lines. -/
  parted : options.branchProbabilities = true →
    ∀ before f after, group.starting p = before ++ f :: after →
      ∃ above below, rows = above ++ functionRow options f :: below ∧
        above.filter Row.isFunction = before.map (functionRow options) ∧ Parted f above below
  in_place : (rows.filterMap Row.place?).Pairwise (· ≤ ·)
  /-- What the blocks that end at a line show stands there. -/
  details : ∀ n, rows.filterMap (Row.detailAt? n) = (p.endingAt ⟨group.file, n⟩).flatMap fun id =>
    Detail.ofBlock options (p.flowOf id.routine) id.block
  /-- Details of one kind are numbered from zero. -/
  numbered : ∀ n kind, rows.filterMap (Row.numberAt? n kind) =
    List.range ((rows.filterMap (Row.detailAt? n)).countP fun d => d.kind == kind)
  /-- The rows of functions are written with their names and counts. -/
  called : options.branchProbabilities = true →
    (rows.filter Row.isFunction).map Row.text = (group.starting p).map (calledText options)
  /-- Calls, branches and unconditional arcs are written with their kind and their number. -/
  numbered_text : ∀ n kind, kind ≠ .block → rows.filterMap (Row.textAt? n kind) =
    ((rows.filterMap (Row.detailAt? n)).filter fun d => d.kind == kind).zipIdx.map
      fun (d, k) => kind.word ++ " " ++ Text.padNat 2 k ++ " " ++ d.told
  /-- Blocks are written with their own numbers. -/
  block_text : ∀ n, rows.filterMap (Row.textAt? n .block) =
    (rows.filterMap (Row.detailAt? n)).filterMap (blockText? n)
  /-- The numbers of source lines are read off the lines that are written, behind those of the head. -/
  read_numbers : ((rows.map Row.text).filterMap Written.source?).map Prod.fst =
    List.replicate 5 0 ++ rows.filterMap Row.number?
  /-- So are the functions. -/
  read_functions : options.branchProbabilities = true →
    (rows.map Row.text).filterMap Written.function? =
      (group.starting p).map fun f => (Symbol.shown options f.name, f.flow.entryCount.toNat)
  /-- So are the numbers of details, below the line that they belong to. -/
  read_details : ∀ n kind, kind ≠ .block →
    ((Written.numbered 0 (rows.map Row.text)).filter fun d => d.line == n && d.kind == kind.word).map
        Written.Numbered.number =
      List.range ((rows.filterMap (Row.detailAt? n)).countP fun d => d.kind == kind)

variable {p : Profile} {options : Options} {group : FileGroup} {source : List String}
  {origin : Provenance} {f : Routine} {n : Nat}

/-! ## One line -/

theorem filterMap_place?_lineRows (options : Options) (p : Profile) (group : FileGroup)
    (source : List String) (n : Nat) :
    (lineRows options p group source n).filterMap Row.place? =
      n :: (details options p group n).map fun _ => n := by
  have hdetails := filterMap_number (r := Row.place?) (f := fun line _ => some line)
    (fun _ _ _ => rfl) n [] (details options p group n)
  rw [lineRows, List.filterMap_cons, hdetails]
  exact congrArg (n :: ·) (congrFun List.filterMap_eq_map _)

theorem eq_of_mem_lineRows {line : Nat}
    (h : n ∈ (lineRows options p group source line).filterMap Row.place?) : n = line := by
  rw [filterMap_place?_lineRows, List.mem_cons, List.mem_map] at h
  rcases h with rfl | ⟨-, -, rfl⟩ <;> rfl

/-- **Details of a kind are numbered one after the other.** -/
theorem filterMap_numberAt?_number (n : Nat) (kind : Detail.Kind) (before ds : List Detail) :
    (number n before ds).filterMap (Row.numberAt? n kind) =
      List.range' (before.countP fun d => d.kind == kind) (ds.countP fun d => d.kind == kind) := by
  induction ds generalizing before with
  | nil => rfl
  | cons d ds ih =>
    rw [number, List.filterMap_cons, ih, List.countP_append]
    by_cases hkind : d.kind = kind
    · simp [Row.numberAt?, hkind, List.range'_succ]
    · simp [Row.numberAt?, hkind]

theorem exists_eq_detail_of_mem_number {row : Row} {before ds : List Detail}
    (h : row ∈ number n before ds) : ∃ k d, row = .detail n k d := by
  induction ds generalizing before with
  | nil => exact absurd h List.not_mem_nil
  | cons d ds ih =>
    rcases List.mem_cons.1 h with rfl | h
    · exact ⟨_, d, rfl⟩
    · exact ih h

/-- A list of which only one element tells something. -/
theorem flatMap_eq_of_nodup {α β : Type} {as : List α} {g : α → List β} {a : α} (hnodup : as.Nodup)
    (hother : ∀ b ∈ as, b ≠ a → g b = []) (ha : a ∉ as → g a = []) : as.flatMap g = g a := by
  induction as with
  | nil => exact (ha List.not_mem_nil).symm
  | cons b bs ih =>
    obtain ⟨hb, hbs⟩ := List.nodup_cons.1 hnodup
    rw [List.flatMap_cons]
    by_cases hab : b = a
    · subst hab
      have hrest : bs.flatMap g = [] := List.flatMap_eq_nil_iff.2 fun c hc =>
        hother c (List.mem_cons_of_mem b hc) fun heq => hb (heq ▸ hc)
      rw [hrest, List.append_nil]
    · rw [hother b List.mem_cons_self hab, List.nil_append]
      refine ih hbs (fun c hc => hother c (List.mem_cons_of_mem b hc)) fun hnot => ha ?_
      exact fun hmem => (List.mem_cons.1 hmem).elim (fun heq => hab heq.symm) hnot

/-! ## Details -/

/-- A block that ends at a line covers it. -/
theorem endingAt_eq (p : Profile) (line : SourceLine) :
    p.endingAt line = (p.blocksOn line).filter (FileGroup.isAttributed p line) := by
  rw [Profile.endingAt, Profile.blocksOn, List.filter_filter]
  refine List.filter_congr fun id _ => ?_
  cases hattributed : FileGroup.isAttributed p line id with
  | false => rfl
  | true =>
    rw [Bool.true_and, eq_comm]
    exact Profile.isOn_of_lastLine? (beq_iff_eq.1 (Bool.and_eq_true_iff.1 hattributed).2)

/-- **What a line shows** is what the blocks show that end at it. -/
theorem details_eq (hgroup : group ∈ p.fileGroups options) (options' : Options) (n : Nat) :
    details options' p group n = (p.endingAt ⟨group.file, n⟩).flatMap fun id =>
      Detail.ofBlock options' (p.flowOf id.routine) id.block := by
  rw [details, endingAt_eq]
  cases hfound : group.line? n with
  | none =>
    have hnone : p.blocksOn ⟨group.file, n⟩ = [] := by
      refine List.eq_nil_iff_forall_not_mem.2 fun id hid => ?_
      have hcovers := Profile.mem_blocksOn.1 hid
      obtain ⟨l, hl, hline⟩ := List.mem_map.1
        (((Profile.exact_of_mem_fileGroups hgroup).mem_lines n).2 ⟨id, hcovers⟩)
      exact List.find?_eq_none.1 hfound l hl (beq_iff_eq.2 hline)
    rw [hnone]
    rfl
  | some l =>
    have hline : l.line = n := by simpa using List.find?_some hfound
    obtain ⟨m, -, rfl⟩ := (FileGroup.mem_lines_iff hgroup).1 (List.mem_of_find?_eq_some hfound)
    obtain rfl : m = n := hline
    rfl

/-- A line without a row shows nothing. -/
theorem details_eq_nil (h : p.Reachable) (hgroup : group ∈ p.fileGroups options) {length : Nat}
    (hn : n ∉ listed p group length) : details options p group n = [] := by
  have hnone : group.line? n = none := by
    refine List.find?_eq_none.2 fun l hl hline => hn ?_
    rw [← beq_iff_eq.1 hline]
    exact mem_listed hl (Profile.line_pos_of_mem_fileGroups h.serves hgroup l hl) length
  rw [details, hnone]

/-- **What is told of one line's details** is told at that line. -/
theorem filterMap_rows_detail (h : p.Reachable) (hgroup : group ∈ p.fileGroups options)
    {α : Type} {r : Row → Option α} (hheader : ∀ label value, r (.header label value) = none)
    (hfunction : ∀ f, r (functionRow options f) = none)
    (hsource : ∀ m mark text, r (.source m mark text) = none)
    (hother : ∀ m k d, m ≠ n → r (.detail m k d) = none) :
    (rows options p group source origin).filterMap r =
      (number n [] (details options p group n)).filterMap r := by
  have hline (m : Nat) : (lineRows options p group source m).filterMap r =
      (number m [] (details options p group m)).filterMap r := by
    rw [lineRows, List.filterMap_cons, hsource]
  have hnodup : (listed p group source.length).Nodup :=
    (pairwise_listed p group source.length).imp Nat.ne_of_lt
  rw [filterMap_rows hheader, filterMap_body hfunction]
  simp only [hline]
  refine flatMap_eq_of_nodup hnodup (fun m _ hm => ?_) fun hn => ?_
  · refine filterMap_eq_nil fun row hrow => ?_
    obtain ⟨k, d, rfl⟩ := exists_eq_detail_of_mem_number hrow
    exact hother m k d hm
  · rw [details_eq_nil h hgroup hn]
    rfl

theorem filterMap_detailAt?_rows (h : p.Reachable) (hgroup : group ∈ p.fileGroups options) (n : Nat) :
    (rows options p group source origin).filterMap (Row.detailAt? n) = details options p group n := by
  rw [filterMap_rows_detail h hgroup (n := n) (fun _ _ => rfl) (fun _ => rfl) (fun _ _ _ => rfl)
    (fun m k d hm => if_neg hm),
    filterMap_number (f := fun m d => if m = n then some d else none) (fun _ _ _ => rfl)]
  simp

theorem filterMap_numberAt?_rows (h : p.Reachable) (hgroup : group ∈ p.fileGroups options) (n : Nat)
    (kind : Detail.Kind) :
    (rows options p group source origin).filterMap (Row.numberAt? n kind) =
      List.range ((details options p group n).countP fun d => d.kind == kind) := by
  rw [filterMap_rows_detail h hgroup (n := n) (fun _ _ => rfl) (fun _ => rfl) (fun _ _ _ => rfl)
    (fun m k d hm => if_neg fun hboth => hm hboth.1), filterMap_numberAt?_number, List.range_eq_range']
  rfl

/-- **Details of a kind are written one after the other,** with numbers that go up by one. -/
theorem filterMap_textAt?_number {kind : Detail.Kind} (hkind : kind ≠ .block) (n : Nat)
    (before ds : List Detail) :
    (number n before ds).filterMap (Row.textAt? n kind) =
      ((ds.filter fun d => d.kind == kind).zipIdx (before.countP fun d => d.kind == kind)).map
        fun (d, k) => kind.word ++ " " ++ Text.padNat 2 k ++ " " ++ d.told := by
  induction ds generalizing before with
  | nil => rfl
  | cons d ds ih =>
    rw [number, List.filterMap_cons, ih, List.countP_append]
    by_cases hd : d.kind = kind
    · subst hd
      simp [Row.textAt?, Row.text_detail, Detail.text_eq hkind]
    · simp [Row.textAt?, hd]

theorem filterMap_textAt?_rows (h : p.Reachable) (hgroup : group ∈ p.fileGroups options) (n : Nat)
    {kind : Detail.Kind} (hkind : kind ≠ .block) :
    (rows options p group source origin).filterMap (Row.textAt? n kind) =
      ((details options p group n).filter fun d => d.kind == kind).zipIdx.map
        fun (d, k) => kind.word ++ " " ++ Text.padNat 2 k ++ " " ++ d.told := by
  rw [filterMap_rows_detail h hgroup (n := n) (fun _ _ => rfl) (fun _ => rfl) (fun _ _ _ => rfl)
    (fun m k d hm => if_neg fun hboth => hm hboth.1), filterMap_textAt?_number hkind]
  rfl

theorem textAt?_block (n line number : Nat) (d : Detail) :
    Row.textAt? n .block (.detail line number d) = if line = n then blockText? n d else none := by
  by_cases hline : line = n
  · subst hline
    rw [if_pos rfl]
    cases d with
    | block => exact if_pos ⟨rfl, rfl⟩
    | _ => exact if_neg fun h => nomatch h.2
  · rw [if_neg hline]
    exact if_neg fun h => hline h.1

/-- Blocks are written with their own numbers. -/
theorem filterMap_textAt?_block (h : p.Reachable) (hgroup : group ∈ p.fileGroups options) (n : Nat) :
    (rows options p group source origin).filterMap (Row.textAt? n .block) =
      (details options p group n).filterMap (blockText? n) := by
  rw [filterMap_rows_detail h hgroup (n := n) (fun _ _ => rfl) (fun _ => rfl) (fun _ _ _ => rfl)
    (fun m k d hm => if_neg fun hboth => hm hboth.1), filterMap_number (textAt?_block n)]
  exact List.filterMap_congr fun d _ => if_pos rfl

/-- **Numbers of details are read off their lines.** -/
theorem map_number_filter_numbered? (n : Nat) {kind : Detail.Kind} (hkind : kind ≠ .block)
    (rows : List Row) :
    ((rows.filterMap Row.numbered?).filter fun d => d.line == n && d.kind == kind.word).map
        Written.Numbered.number =
      rows.filterMap (Row.numberAt? n kind) := by
  rw [List.filter_filterMap, List.map_filterMap]
  refine List.filterMap_congr fun row _ => ?_
  cases row with
  | detail line number d =>
    rw [Row.numbered?, Row.numberAt?]
    by_cases hd : d.kind = .block
    · have hother : d.kind ≠ kind := fun h => hkind (h.symm.trans hd)
      rw [if_pos hd, if_neg fun h => hother h.2]
      rfl
    · rw [if_neg hd]
      by_cases hat : line = n ∧ d.kind = kind <;>
        simp [Option.filter_some, Detail.Kind.word_inj, hat]
  | _ => rfl

/-! ## Lines past the end -/

/-- **Which lines past the end of the source have a row.** -/
theorem mem_pastEnd_iff (hgroup : group ∈ p.fileGroups options) {length : Nat} :
    n ∈ pastEnd p group length ↔ length < n ∧ ((∃ id, p.Covers id ⟨group.file, n⟩) ∨
      ∃ f ∈ p.routines, f.file = group.file ∧ f.startLine = n) := by
  have hstarts : n ∈ (group.starting p).map Routine.startLine ↔
      ∃ f ∈ p.routines, f.file = group.file ∧ f.startLine = n := by
    simp only [List.mem_map, Profile.mem_starting hgroup, and_assoc]
  rw [pastEnd, Order.mem_ascending, List.mem_filter, decide_eq_true_iff, and_comm, List.mem_append,
    (Profile.exact_of_mem_fileGroups hgroup).mem_lines, hstarts]

/-! ## The source as it is written -/

theorem gutterOf_eq (group : FileGroup) (n : Nat) :
    Row.gutter (Mark.ofLine? (group.line? n)).text n = gutterOf group n := by
  rw [gutterOf, Row.gutter]
  cases group.line? n <;> rfl

theorem filterMap_sourceText?_rows (options : Options) (p : Profile) (group : FileGroup)
    (source : List String) (origin : Provenance) :
    (rows options p group source origin).filterMap Row.sourceText? =
      (source.zipIdx 1).map (fun (text, n) => gutterOf group n ++ text) ++
        (pastEnd p group source.length).map fun n => gutterOf group n ++ "/*EOF*/" := by
  have hline (n : Nat) : (lineRows options p group source n).filterMap Row.sourceText? =
      [gutterOf group n ++ source[n - 1]?.getD "/*EOF*/"] := by
    rw [← gutterOf_eq]
    exact filterMap_lineRows (fun _ _ _ => rfl) n
  rw [filterMap_rows fun _ _ => rfl, filterMap_body fun _ => rfl]
  simp only [hline]
  rw [← List.map_eq_flatMap, listed, List.map_append]
  refine congrArg₂ (· ++ ·) ?_ ?_
  · refine List.ext_getElem (by simp) fun i hi _ => ?_
    have hlt : i < source.length := by simpa using hi
    have hindex : 1 + i - 1 = i := Nat.add_sub_cancel_left 1 i
    simp [hindex, hlt]
  · refine List.map_congr_left fun n hn => ?_
    have hpast : source.length < n := by
      simpa using (List.mem_filter.1 (Order.mem_ascending.1 hn)).2
    rw [List.getElem?_eq_none (by omega)]
    rfl

/-! ## Functions -/

theorem filter_isFunction_functions (functions : List Routine) :
    (functions.map (functionRow options)).filter Row.isFunction =
      functions.map (functionRow options) := by
  refine List.filter_eq_self.2 fun row hrow => ?_
  obtain ⟨f, -, rfl⟩ := List.mem_map.1 hrow
  rfl

theorem filter_isFunction_lineRows (options : Options) (p : Profile) (group : FileGroup)
    (source : List String) (n : Nat) :
    (lineRows options p group source n).filter Row.isFunction = [] := by
  rw [← List.filterMap_eq_filter, filterMap_lineRows fun _ _ _ => rfl]
  rfl

/-- **Every function has one row,** in order. -/
theorem filter_isFunction_rows (h : p.Reachable) (hgroup : group ∈ p.fileGroups options)
    (hoptions : options.branchProbabilities = true) :
    (rows options p group source origin).filter Row.isFunction =
      (group.starting p).map (functionRow options) := by
  have hline (n : Nat) := filter_isFunction_lineRows options p group source n
  simp only [← List.filterMap_eq_filter] at hline ⊢
  rw [filterMap_rows fun _ _ => rfl, filterMap_body_functions hoptions hline
    (Profile.pairwise_starting hgroup) fun f hf => exists_listed h hgroup hf source.length,
    List.filterMap_eq_filter, filter_isFunction_functions]

/-- Two lists put together, split at an element of one of them. -/
theorem append_eq_append_cons {α : Type} {as bs cs ds : List α} {d : α}
    (h : as ++ bs = cs ++ d :: ds) :
    (∃ mid, as = cs ++ d :: mid) ∨ ∃ mid, cs = as ++ mid ∧ bs = mid ++ d :: ds := by
  rcases List.append_eq_append_iff.1 h with hbehind | ⟨mid, has, hds⟩
  · exact .inr hbehind
  · cases mid with
    | nil => exact .inr ⟨[], by rw [has, List.append_nil, List.append_nil], hds.symm⟩
    | cons e mid =>
      obtain rfl := (List.cons.inj hds).1
      exact .inl ⟨mid, has⟩

/-- Rows belong to the lines that they are made for. -/
theorem mem_lines_of_body {lines : List Nat} {functions : List Routine}
    (h : n ∈ (body options p group source lines functions).filterMap Row.place?) : n ∈ lines := by
  rw [filterMap_body fun _ => rfl, List.mem_flatMap] at h
  obtain ⟨line, hline, hn⟩ := h
  rw [eq_of_mem_lineRows hn]
  exact hline

theorem filterMap_place?_functions (functions : List Routine) :
    (functions.map (functionRow options)).filterMap Row.place? = [] := by
  rw [List.filterMap_map]
  exact List.filterMap_none _

/-- **A function's row stands where its start is reached.** Going along the lines, it has begun at the
first of them that is not before its start, or begins at a later one. -/
theorem body_parted (hoptions : options.branchProbabilities = true) {lines : List Nat}
    {functions before after : List Routine} (hlines : lines.Pairwise (· < ·))
    (hsorted : functions.Pairwise fun f f' => f.startLine ≤ f'.startLine)
    (hbefore : ∀ f ∈ functions, ∃ line ∈ lines, f.startLine ≤ line)
    (hsplit : functions = before ++ f :: after) :
    ∃ above below, body options p group source lines functions =
        above ++ functionRow options f :: below ∧
      above.filter Row.isFunction = before.map (functionRow options) ∧
      (∀ n ∈ above.filterMap Row.place?, n < f.startLine) ∧
      ∀ n ∈ below.filterMap Row.place?, f.startLine ≤ n := by
  induction lines generalizing functions before with
  | nil =>
    obtain ⟨line, hline, -⟩ := hbefore f (hsplit ▸ List.mem_append_cons_self)
    exact absurd hline List.not_mem_nil
  | cons line lines ih =>
    obtain ⟨hline, hlines⟩ := List.pairwise_cons.1 hlines
    let begun := functions.takeWhile fun f => f.startLine ≤ line
    let later := functions.dropWhile fun f => f.startLine ≤ line
    have hparts : begun ++ later = before ++ f :: after :=
      List.takeWhile_append_dropWhile.trans hsplit
    rw [body, if_pos hoptions]
    rcases append_eq_append_cons hparts with ⟨mid, hbegun⟩ | ⟨mid, rfl, hlater⟩
    · -- the function has begun, and no line from here on is before its start
      have hf : f ∈ begun := by
        rw [hbegun]
        exact List.mem_append_cons_self
      have hstart : f.startLine ≤ line := by simpa using List.mem_takeWhile_imp hf
      refine ⟨before.map (functionRow options), mid.map (functionRow options) ++
        lineRows options p group source line ++ body options p group source lines later, ?_,
        filter_isFunction_functions before, fun n hn => ?_, fun n hn => ?_⟩
      · change begun.map _ ++ _ ++ body options p group source lines later = _
        simp only [hbegun, List.map_append, List.map_cons, List.append_assoc, List.cons_append]
      · rw [filterMap_place?_functions] at hn
        exact absurd hn List.not_mem_nil
      · rw [List.filterMap_append, List.filterMap_append, filterMap_place?_functions,
          List.nil_append, List.mem_append] at hn
        rcases hn with hn | hn
        · rw [eq_of_mem_lineRows hn]
          exact hstart
        · exact hstart.trans (hline n (mem_lines_of_body hn)).le
    · -- the function begins behind this line
      have hf : f ∈ later := by
        rw [hlater]
        exact List.mem_append_cons_self
      have hstart : line < f.startLine := lt_startLine_of_mem_dropWhile hsorted hf
      obtain ⟨above, below, hbody, habove, hearlier, hfrom⟩ := ih hlines
        (hsorted.sublist (List.dropWhile_sublist _))
        (fun f hf => exists_line_of_later hsorted hbefore hf) hlater
      refine ⟨begun.map (functionRow options) ++ lineRows options p group source line ++ above, below,
        ?_, ?_, fun n hn => ?_, hfrom⟩
      · rw [hbody, ← List.append_assoc]
      · rw [List.filter_append, List.filter_append, filter_isFunction_functions,
          filter_isFunction_lineRows, habove, List.append_nil, List.map_append]
      · rw [List.filterMap_append, List.filterMap_append, filterMap_place?_functions,
          List.nil_append, List.mem_append] at hn
        rcases hn with hn | hn
        · rw [eq_of_mem_lineRows hn]
          exact hstart
        · exact hearlier n hn

theorem startLine_mem_listed (hgroup : group ∈ p.fileGroups options) (hf : f ∈ group.starting p)
    (hpos : 0 < f.startLine) (length : Nat) : f.startLine ∈ listed p group length := by
  obtain ⟨hmem, hfile⟩ := (Profile.mem_starting hgroup).1 hf
  rcases Nat.lt_or_ge length f.startLine with hpast | hwithin
  · exact List.mem_append_right _ ((mem_pastEnd_iff hgroup).2 ⟨hpast, .inr ⟨f, hmem, hfile, rfl⟩⟩)
  · exact List.mem_append_left _ (List.mem_range'_1.2 ⟨hpos, by omega⟩)

/-- **Every function's row parts the lines at its start.** -/
theorem exists_parted (h : p.Reachable) (hgroup : group ∈ p.fileGroups options)
    (hoptions : options.branchProbabilities = true) {before after : List Routine}
    (hsplit : group.starting p = before ++ f :: after) :
    ∃ above below, rows options p group source origin = above ++ functionRow options f :: below ∧
      above.filter Row.isFunction = before.map (functionRow options) ∧ Parted f above below := by
  have hf : f ∈ group.starting p := by
    rw [hsplit]
    exact List.mem_append_cons_self
  obtain ⟨above, below, hbody, habove, hearlier, hlater⟩ := body_parted hoptions
    (pairwise_listed p group source.length) (Profile.pairwise_starting hgroup)
    (fun f hf => exists_listed h hgroup hf source.length) hsplit
  have hrows : rows options p group source origin =
      (headers group.display origin ++ above) ++ functionRow options f :: below := by
    rw [rows, hbody, List.append_assoc]
  have hearlier' : ∀ n ∈ (headers group.display origin ++ above).filterMap Row.place?,
      n < f.startLine := hearlier
  refine ⟨_, below, hrows, habove, hearlier', hlater, fun hpos => ?_⟩
  -- the row of the start is not above, where lines are smaller
  have hnumbers := filterMap_number?_rows options p group source origin
  have hstart := startLine_mem_listed hgroup hf hpos source.length
  rw [← hnumbers, hrows, List.filterMap_append, List.mem_append] at hstart
  refine hstart.resolve_left fun hmem => ?_
  obtain ⟨row, hrow, hnumber⟩ := List.mem_filterMap.1 hmem
  exact Nat.lt_irrefl _
    (hearlier' _ (List.mem_filterMap.2 ⟨row, hrow, Row.place?_of_number? hnumber⟩))

/-- **Rows stand in the order of their lines.** -/
theorem pairwise_place?_rows (options : Options) (p : Profile) (group : FileGroup)
    (source : List String) (origin : Provenance) :
    ((rows options p group source origin).filterMap Row.place?).Pairwise (· ≤ ·) := by
  rw [filterMap_rows fun _ _ => rfl, filterMap_body fun _ => rfl]
  refine List.pairwise_flatMap.2 ⟨fun n _ => ?_, ?_⟩
  · refine List.pairwise_iff_forall_sublist.2 fun {a b} hsub => ?_
    have ha : a = n := eq_of_mem_lineRows (hsub.subset List.mem_cons_self)
    have hb : b = n := eq_of_mem_lineRows (hsub.subset (List.mem_cons_of_mem a List.mem_cons_self))
    rw [ha, hb]
  · refine (pairwise_listed p group source.length).imp fun hlt a ha b hb => ?_
    rw [eq_of_mem_lineRows ha, eq_of_mem_lineRows hb]
    exact hlt.le

end Annotated

/-- **The layout of an annotated source.** Its text is that of rows which are laid out: each line of the
source once and in order, behind them the lines past its end that are covered or start a function, each
function once and before the row of its start, and details numbered from zero. Each row is written as
`LaidOut` says, and its number or its name is read off what is written. -/
theorem Annotated.text_laidOut {p : Profile} (h : p.Reachable) {options : Options} {group : FileGroup}
    (hgroup : group ∈ p.fileGroups options) (source : List String) (origin : Provenance) :
    text options p group source origin =
        Text.unlines ((rows options p group source origin).map Row.text) ∧
      LaidOut options p group source (rows options p group source origin) := by
  have hexact := Profile.exact_of_mem_fileGroups hgroup
  have hnumbers := filterMap_number?_rows options p group source origin
  refine ⟨rfl,
    { numbers := hnumbers
      mem_pastEnd := fun n => mem_pastEnd_iff hgroup
      increase := hnumbers ▸ pairwise_listed p group source.length
      written := filterMap_sourceText?_rows options p group source origin
      functions := fun hoptions => ?_
      mem_routines := hexact.mem_routines
      routines_in_order := hexact.routines_in_order
      parted := fun hoptions _ _ _ hsplit => exists_parted h hgroup hoptions hsplit
      in_place := pairwise_place?_rows options p group source origin
      details := fun n => (filterMap_detailAt?_rows h hgroup n).trans (details_eq hgroup options n)
      numbered := fun n kind => ?_
      called := fun hoptions => ?_
      numbered_text := fun n kind hkind => ?_
      block_text := fun n => ?_
      read_numbers := ?_
      read_functions := fun hoptions => ?_
      read_details := fun n kind hkind => ?_ }⟩
  · have hrows := congrArg (List.map (Option.map (functionRow options))) (Profile.map_some_starting hgroup)
    rw [List.map_map, List.map_map] at hrows
    rw [filter_isFunction_rows h hgroup hoptions, List.map_map]
    exact hrows
  · rw [filterMap_numberAt?_rows h hgroup, filterMap_detailAt?_rows h hgroup]
  · rw [filter_isFunction_rows h hgroup hoptions, List.map_map]
    exact List.map_congr_left fun f _ => rfl
  · rw [filterMap_textAt?_rows h hgroup n hkind, filterMap_detailAt?_rows h hgroup]
  · rw [filterMap_textAt?_block h hgroup n, filterMap_detailAt?_rows h hgroup]
  · rw [List.filterMap_map, funext (f := Written.source? ∘ Row.text) Written.source?_text, hnumbers]
    exact map_fst_marked?_rows options p group source origin
  · rw [List.filterMap_map, funext (f := Written.function? ∘ Row.text) Written.function?_text,
      ← List.map_filterMap, filterMap_function?_rows h hgroup hoptions, List.map_map]
    rfl
  · rw [numbered_rows, map_number_filter_numbered? n hkind, filterMap_numberAt?_rows h hgroup,
      filterMap_detailAt?_rows h hgroup]

/-- **Of a function that starts at line 0 and one that starts past the end** of a source of two lines. -/
theorem Annotated.text_laidOut_ofBranching :
    let p := Profile.ofBranching [1000, 1, 999]
    let options : Options := { branchProbabilities := true }
    let group := p.fileGroup options "a.c" 0
    let rows := Annotated.rows options p group ["int x;", "f"] ⟨"a.gcno", "a.gcda", 1, 1⟩
    p.Reachable ∧ group ∈ p.fileGroups options ∧
      pastEnd p group 2 = [4, 7, 8] ∧ rows.filterMap Row.number? = [1, 2, 4, 7, 8] ∧
      (∃ f g, group.starting p = [f, g] ∧ f.startLine = 0 ∧ g.startLine = 7 ∧
        ∃ above below, rows = above ++ functionRow options g :: below ∧
          above.filter Row.isFunction = [functionRow options f] ∧ Parted g above below) ∧
      rows.filterMap (Row.numberAt? 2 .branch) = [0, 1] ∧
      rows.filterMap (Row.textAt? 2 .branch) = ["branch  0 taken 1%", "branch  1 taken 99%"] ∧
      (rows.filter Row.isFunction).map Row.text =
        ["function f called 1000 returned 100% blocks executed 100%",
          "function g called 0 returned 0% blocks executed 0%"] := by
  intro p options group rows
  have hreachable : p.Reachable := Profile.reachable_ofBranching [1000, 1, 999]
  have hgroup : group ∈ p.fileGroups options := by decide +kernel
  obtain ⟨-, hlaid⟩ := Annotated.text_laidOut hreachable hgroup ["int x;", "f"]
    ⟨"a.gcno", "a.gcda", 1, 1⟩
  obtain ⟨f, g, hstarting⟩ := List.length_eq_two.1
    (show (group.starting p).length = 2 by decide +kernel)
  have hstarts : (group.starting p).map Routine.startLine = [0, 7] := by decide +kernel
  rw [hstarting] at hstarts
  obtain ⟨hf, hg⟩ := List.cons.inj hstarts
  refine ⟨hreachable, hgroup, by decide +kernel, hlaid.numbers.trans (by decide +kernel),
    ⟨f, g, hstarting, hf, (List.cons.inj hg).1, ?_⟩,
    (hlaid.numbered 2 .branch).trans (by decide +kernel),
    (hlaid.numbered_text 2 .branch (by decide)).trans (by decide +kernel),
    (hlaid.called rfl).trans (by decide +kernel)⟩
  exact hlaid.parted rfl [f] g [] hstarting

end ArcCoverage
