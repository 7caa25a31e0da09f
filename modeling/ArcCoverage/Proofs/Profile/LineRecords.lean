/-
# Lines of several files in one record

A lines record may go through any number of files. `LinesPayload` is what such a record says, and how it
is spelled:

| piece | spelled as | lines belong to |
| --- | --- | --- |
| a block | its number | |
| lines before any file | their numbers | the function's own file |
| a file | a zero word and its name, padded | |
| its lines | their numbers | that file |
| the end | a zero word and an empty name, padded | |

The reader tells the pieces apart by the zero word and the name behind it alone. `LineItem.spells_readAll`
says that it takes such a record for what it says, and that it notices where one is cut;
`Routine.addItems_groups` what this makes of the function and of the table of files.
-/
import ArcCoverage.Proofs.Format.Spelling
import ArcCoverage.Proofs.Profile.FunctionNotes

namespace ArcCoverage

/-! ## Many names in a table -/

namespace FileTable

variable {t t' : FileTable}

/-- **A table with some names more,** as far as they are new. -/
def enter (t : FileTable) (names : List String) : FileTable :=
  names.foldl (fun t name => (t.intern name).2) t

theorem prefix_enter (t : FileTable) (names : List String) : t.names <+: (t.enter names).names := by
  induction names generalizing t with
  | nil => exact List.prefix_rfl
  | cons name names ih => exact (t.prefix_intern name).trans (ih _)

/-- **New names stand behind the others** in the order of their first appearance. -/
theorem names_enter (t : FileTable) (names : List String) :
    (t.enter names).names = t.names ++ (names.filter (· ∉ t.names)).eraseDups := by
  induction names generalizing t with
  | nil => exact (List.append_nil _).symm
  | cons name names ih =>
    rw [enter, List.foldl_cons]
    refine (ih _).trans ?_
    rw [names_intern]
    by_cases hname : name ∈ t.names
    · rw [if_pos hname, List.filter_cons_of_neg (by simpa using hname)]
    · have hlater : names.filter (· ∉ t.names ++ [name]) =
          (names.filter (· ∉ t.names)).filter (!· == name) := by
        rw [List.filter_filter]
        refine List.filter_congr fun other _ => ?_
        by_cases hother : other = name <;> simp [hother]
      rw [if_neg hname, List.filter_cons_of_pos (by simpa using hname), List.eraseDups_cons, hlater,
        List.append_assoc, List.singleton_append]

/-- The number of a name in a larger table is the one it has. -/
theorem idxOf_of_prefix (h : t.names <+: t'.names) {name : String} (hname : name ∈ t.names) :
    t'.names.idxOf name = t.names.idxOf name := by
  obtain ⟨more, hmore⟩ := h
  rw [← hmore, List.idxOf_append_of_mem hname]

/-- A name that is entered is numbered by where it first stands. -/
theorem fst_intern (t : FileTable) (name : String) :
    (t.intern name).1 = (t.intern name).2.names.idxOf name := by
  unfold intern
  cases h : t.number? name with
  | some i =>
    dsimp only
    rw [List.idxOf_eq_getD_idxOf?]
    exact (congrArg (Option.getD · _) h).symm
  | none =>
    dsimp only
    rw [List.idxOf_append_of_notMem (number?_eq_none_iff.1 h), List.idxOf_cons_self]
    rfl

theorem mem_intern (t : FileTable) (name : String) : name ∈ (t.intern name).2.names :=
  List.mem_of_getElem? (t.getElem?_intern name)

end FileTable

/-! ## Many lines on a block -/

namespace FlowGraph

/-- The graph with lines put on a block, behind those that it has. -/
def appendLines (g : FlowGraph) (block : Nat) (lines : List SourceLine) : FlowGraph :=
  { g with blocks := g.blocks.modify block fun b => { b with lines := b.lines ++ lines } }

theorem appendLines_nil (g : FlowGraph) (block : Nat) : g.appendLines block [] = g := by
  have hsame : (fun b : Block => { b with lines := b.lines ++ [] }) = id := by
    funext b
    rw [List.append_nil]
    rfl
  rw [appendLines, hsame, List.modify_id]

theorem appendLines_append (g : FlowGraph) (block : Nat) (lines lines' : List SourceLine) :
    (g.appendLines block lines).appendLines block lines' = g.appendLines block (lines ++ lines') := by
  simp only [appendLines, List.modify_modify_eq]
  congr 2
  funext b
  simp only [Function.comp, List.append_assoc]

end FlowGraph

/-! ## What a record says -/

/-- **The lines of a file** that is named within a lines record. -/
structure FileLines where
  file : PaddedText
  numbers : List UInt32
  file_nonempty : file.text ≠ ""
  zero_notMem : 0 ∉ numbers

/-- **A lines record,** as it is spelled. -/
structure LinesPayload where
  block : UInt32
  /-- The lines in the function's own file. -/
  own : List UInt32
  groups : List FileLines
  /-- The empty name at the end. -/
  stop : PaddedText
  zero_notMem : 0 ∉ own
  stop_empty : stop.text = ""

namespace FileLines

/-- The items that say so. -/
def items (group : FileLines) : List LineItem := .file group.file.text :: group.numbers.map .line

/-- The bytes of a file's lines. -/
def encode (order : ByteOrder) (group : FileLines) : List UInt8 :=
  order.encode 0 ++ (group.file.encode order ++ group.numbers.flatMap order.encode)

/-- The lines, with the number that their file has in a table. -/
def linesIn (files : FileTable) (group : FileLines) : List SourceLine :=
  group.numbers.map fun number => ⟨files.names.idxOf group.file.text, number.toNat⟩

end FileLines

namespace LinesPayload

/-- The items of a record. -/
def items (payload : LinesPayload) : List LineItem :=
  payload.own.map .line ++ payload.groups.flatMap FileLines.items

/-- The bytes of the items, and of the end behind them. -/
def encodeItems (order : ByteOrder) (payload : LinesPayload) : List UInt8 :=
  payload.own.flatMap order.encode ++ (payload.groups.flatMap (FileLines.encode order) ++
    (order.encode 0 ++ payload.stop.encode order))

/-- **The bytes of a record.** -/
def encode (order : ByteOrder) (payload : LinesPayload) : List UInt8 :=
  order.encode payload.block ++ payload.encodeItems order

/-- The names of the files, in order. -/
def names (payload : LinesPayload) : List String := payload.groups.map (·.file.text)

/-- **The lines of a record:** those of the function's own file, and each file's. -/
def linesIn (own : Nat) (files : FileTable) (payload : LinesPayload) : List SourceLine :=
  payload.own.map (fun number => ⟨own, number.toNat⟩) ++
    payload.groups.flatMap (FileLines.linesIn files)

end LinesPayload

/-! ## Reading items -/

namespace Read

variable {c c' : Cursor}

theorem length_rest_bytes {n : Nat} {slice : List UInt8} (h : bytes n c = .ok slice c') :
    c'.rest.length + n = c.rest.length := by
  unfold bytes at h
  split_ifs at h with hfits
  obtain ⟨-, rfl⟩ := EStateM.Result.ok.inj h
  rw [Cursor.advance, List.length_drop]
  omega

/-- A word takes four of the bytes that are left. -/
theorem length_rest_word {w : UInt32} (h : word c = .ok w c') : c'.rest.length + 4 = c.rest.length := by
  unfold word at h
  cases hbytes : bytes 4 c with
  | ok quad d =>
    rw [hbytes] at h
    obtain ⟨-, rfl⟩ := EStateM.Result.ok.inj h
    exact length_rest_bytes hbytes
  | error e d =>
    rw [hbytes] at h
    cases h

theorem length_rest_string {text : String} (h : string c = .ok text c') :
    c'.rest.length < c.rest.length := by
  obtain ⟨words, c₁, hwords, h⟩ := EStateM.bind_eq_ok.1 h
  obtain ⟨padded, c₂, hpadded, h⟩ := EStateM.bind_eq_ok.1 h
  obtain ⟨-, rfl⟩ := EStateM.pure_eq_ok.1 h
  have hword := length_rest_word hwords
  have hbytes := length_rest_bytes hpadded
  omega

end Read

namespace LineItem

variable {order : ByteOrder} {bytes : List UInt8} {items : List LineItem} {fuel : Nat}

/-- The end of a record. -/
theorem spells_stop {stop : PaddedText} (hstop : stop.text = "") (fuel : Nat) :
    Spells id order (readSome (fuel + 1)) (order.encode 0 ++ stop.encode order) [] := by
  rw [← List.append_nil (stop.encode order)]
  refine (Read.spells_word 0).bind ((stop.spells order).bind ?_)
  rw [hstop]
  exact spells_pure []

/-- A line in front of other items. -/
theorem spells_line {number : UInt32} (hnumber : number ≠ 0)
    (h : Spells id order (readSome fuel) bytes items) :
    Spells id order (readSome (fuel + 1)) (order.encode number ++ bytes) (.line number :: items) := by
  refine (Read.spells_word number).bind ?_
  rw [if_pos (bne_iff_ne.2 hnumber)]
  exact h.map

/-- A file in front of other items. -/
theorem spells_file {name : PaddedText} (hname : name.text ≠ "")
    (h : Spells id order (readSome fuel) bytes items) :
    Spells id order (readSome (fuel + 1)) (order.encode 0 ++ (name.encode order ++ bytes))
      (.file name.text :: items) := by
  refine (Read.spells_word 0).bind ((name.spells order).bind ?_)
  have hnonempty : name.text.isEmpty = false := by simpa using hname
  rw [hnonempty]
  exact h.map

/-- Some lines in front of other items. -/
theorem spells_lines {numbers : List UInt32} (hnumbers : 0 ∉ numbers)
    (h : Spells id order (readSome fuel) bytes items) :
    Spells id order (readSome (fuel + numbers.length)) (numbers.flatMap order.encode ++ bytes)
      (numbers.map .line ++ items) := by
  induction numbers with
  | nil => exact h
  | cons number numbers ih =>
    rw [List.mem_cons, not_or] at hnumbers
    rw [List.flatMap_cons, List.append_assoc]
    exact spells_line (Ne.symm hnumbers.1) (ih hnumbers.2)

/-- The lines of some files in front of other items. -/
theorem spells_groups (groups : List FileLines) (h : Spells id order (readSome fuel) bytes items) :
    Spells id order (readSome (fuel + (groups.flatMap FileLines.items).length))
      (groups.flatMap (FileLines.encode order) ++ bytes)
      (groups.flatMap FileLines.items ++ items) := by
  induction groups with
  | nil => exact h
  | cons group groups ih =>
    have hgroup := spells_file group.file_nonempty (spells_lines group.zero_notMem ih)
    have hlength : fuel + ((group :: groups).flatMap FileLines.items).length =
        fuel + (groups.flatMap FileLines.items).length + group.numbers.length + 1 := by
      rw [List.flatMap_cons, List.length_append, FileLines.items, List.length_cons, List.length_map]
      omega
    rw [hlength, List.flatMap_cons, List.flatMap_cons, FileLines.encode, FileLines.items]
    simpa only [List.append_assoc, List.cons_append] using hgroup

/-- **The fuel does not matter** if there is more of it than bytes. -/
theorem readSome_fuel {c : Cursor} (h : c.rest.length < fuel) (fuel' : Nat) (h' : c.rest.length < fuel') :
    readSome fuel c = readSome fuel' c := by
  induction fuel generalizing c fuel' with
  | zero => omega
  | succ fuel ih =>
    obtain ⟨fuel', rfl⟩ : ∃ n, fuel' = n + 1 := ⟨fuel' - 1, by omega⟩
    refine EStateM.bind_congr fun number c₁ hword => ?_
    have hshorter := Read.length_rest_word hword
    split_ifs
    · exact EStateM.bind_congr_left (ih (by omega) _ (by omega))
    · refine EStateM.bind_congr fun name c₂ hname => ?_
      have hnotLonger := Read.length_rest_string hname
      split_ifs
      · rfl
      · exact EStateM.bind_congr_left (ih (by omega) _ (by omega))

/-- The items of a record are read back with any fuel that reaches for them. -/
theorem spells_readSome (order : ByteOrder) (payload : LinesPayload) (fuel : Nat) :
    Spells id order (readSome (fuel + 1 + payload.items.length)) (payload.encodeItems order)
      payload.items := by
  have hstop := @spells_stop order payload.stop payload.stop_empty fuel
  have hall := spells_lines payload.zero_notMem (spells_groups payload.groups hstop)
  have hlength : fuel + 1 + payload.items.length =
      fuel + 1 + (payload.groups.flatMap FileLines.items).length + payload.own.length := by
    rw [LinesPayload.items, List.length_append, List.length_map]
    omega
  rw [List.append_nil] at hall
  rw [hlength]
  exact hall

/-- **All items of a record are read back,** and a cut is noticed. -/
theorem spells_readAll (order : ByteOrder) (payload : LinesPayload) :
    Spells id order readAll (payload.encodeItems order) payload.items where
  whole position rest := by
    have hspells := spells_readSome order payload (payload.encodeItems order ++ rest).length
    rw [readAll, readSome_fuel (Nat.lt_succ_self _)
      ((payload.encodeItems order ++ rest).length + 1 + payload.items.length) (by dsimp only; omega)]
    exact hspells.whole position rest
  cut position n hn := by
    have hspells := spells_readSome order payload ((payload.encodeItems order).take n).length
    rw [readAll, readSome_fuel (Nat.lt_succ_self _)
      (((payload.encodeItems order).take n).length + 1 + payload.items.length) (by dsimp only; omega)]
    exact hspells.cut position n hn

end LineItem

/-! ## Putting items on a block -/

namespace Routine

variable {block file : Nat} {f : Routine} {files t : FileTable}

/-- Some lines in front of other items. -/
theorem addItems_lines_append (numbers : List UInt32) (items : List LineItem) :
    addItems block file (numbers.map .line ++ items) f files =
      addItems block file items
        { f with flow := f.flow.appendLines block (numbers.map fun n => ⟨file, n.toNat⟩) } files := by
  induction numbers generalizing f with
  | nil => rw [List.map_nil, List.map_nil, FlowGraph.appendLines_nil, List.nil_append]
  | cons number numbers ih =>
    have hfirst : f.flow.addLine block ⟨file, number.toNat⟩ =
      f.flow.appendLines block [⟨file, number.toNat⟩] := rfl
    rw [List.map_cons, List.cons_append, addItems, ih, hfirst, FlowGraph.appendLines_append]
    rfl

/-- **The lines of some files** are put on the block, each under the number that its file has in the
table afterwards, or in any table that grows from it. -/
theorem addItems_groups (groups : List FileLines)
    (ht : (files.enter (groups.map (·.file.text))).names <+: t.names) :
    addItems block file (groups.flatMap FileLines.items) f files =
      ({ f with flow := f.flow.appendLines block (groups.flatMap (FileLines.linesIn t)) },
        files.enter (groups.map (·.file.text))) := by
  induction groups generalizing file f files with
  | nil =>
    rw [List.flatMap_nil, List.flatMap_nil, FlowGraph.appendLines_nil]
    rfl
  | cons group groups ih =>
    -- the table of the first file is one of those that lead to the last
    have hgrown : (files.intern group.file.text).2.names <+: t.names :=
      (FileTable.prefix_enter _ _).trans ht
    have hfile : (files.intern group.file.text).1 = t.names.idxOf group.file.text := by
      rw [FileTable.fst_intern, FileTable.idxOf_of_prefix hgrown (files.mem_intern _)]
    rw [List.flatMap_cons, FileLines.items, List.cons_append, addItems]
    dsimp only
    rw [addItems_lines_append, ih ht, hfile]
    simp only [FlowGraph.appendLines_append]
    rfl

/-- **A lines record is taken for what it says,** in either byte order. Its bytes spell the function with
all its lines on the block, behind those that it has, and nothing else changed; and the table with the new
names behind the others, where each file has its number and no other file has lost its own. -/
theorem readLines_of_payload (f : Routine) (files : FileTable) {payload : LinesPayload}
    (hblock : payload.block.toNat < f.blockCount) :
    let files' := files.enter payload.names
    let f' : Routine := { f with
      flow := f.flow.appendLines payload.block.toNat (payload.linesIn f.file files') }
    (∀ order, Spells ReadError.shortage order (f.readLines files) (payload.encode order) (f', files')) ∧
      files'.names = files.names ++ (payload.names.filter (· ∉ files.names)).eraseDups ∧
      (∀ i < files.size, files'.name i = files.name i) ∧
      ∀ name ∈ payload.names, files'.name (files'.names.idxOf name) = name := by
  intro files' f'
  have hnames := files.names_enter payload.names
  refine ⟨fun order => ?_, hnames, fun i hi => ?_, fun name hname => ?_⟩
  · refine (Decode.spells_ofRead (Read.spells_word payload.block)).bind ?_
    have hitems := (Decode.spells_ofRead (LineItem.spells_readAll order payload)).map
      (g := fun items => addItems payload.block.toNat f.file items f files)
    have hadded : addItems payload.block.toNat f.file payload.items f files = (f', files') := by
      rw [LinesPayload.items, addItems_lines_append, addItems_groups payload.groups List.prefix_rfl]
      simp only [FlowGraph.appendLines_append]
      rfl
    rw [hadded] at hitems
    have hrequired := @Decode.spells_require order _ (decide_eq_true hblock)
      (.noSuchBlock f.name payload.block f.blockCount)
    exact hrequired.bind hitems
  · rw [FileTable.name, FileTable.name, hnames, List.getD_eq_getElem?_getD, List.getElem?_append_left hi,
      List.getD_eq_getElem?_getD]
  · have hmem : name ∈ files'.names := by
      rw [hnames, List.mem_append, List.mem_eraseDups, List.mem_filter]
      by_cases hold : name ∈ files.names
      · exact .inl hold
      · exact .inr ⟨hname, by simpa using hold⟩
    rw [FileTable.name, List.getD_eq_getElem?_getD, List.getElem?_idxOf hmem, Option.getD_some]

/-- A function with two blocks; one line stands on the second. -/
def twoBlocks : Routine where
  ident := 7
  lineChecksum := 1
  flowChecksum := 2
  name := "main"
  file := 0
  startLine := 3
  flow := { blocks := [{}, { lines := [⟨0, 3⟩] }] }

/-- Lines of the function's own file, and of two files of which one is named twice. One name fills its word,
and one has a word too many. -/
def interleaved : LinesPayload where
  block := 1
  own := [4, 5]
  groups :=
    [{ file := ⟨"b.hh", 0, 1, by decide, by decide +kernel⟩
       numbers := [10]
       file_nonempty := by decide
       zero_notMem := by decide },
     { file := ⟨"a.c", 5, 2, by decide, by decide +kernel⟩
       numbers := []
       file_nonempty := by decide
       zero_notMem := by decide },
     { file := ⟨"b.hh", 4, 2, by decide, by decide +kernel⟩
       numbers := [10, 12]
       file_nonempty := by decide
       zero_notMem := by decide }]
  stop := ⟨"", 4, 1, by decide, by decide +kernel⟩
  zero_notMem := by decide
  stop_empty := rfl

/-- **Three groups of lines,** in a record with a word too many, and the same record without its last
byte. -/
theorem readLines_of_payload_interleaved :
    interleaved.block.toNat < twoBlocks.blockCount ∧
      (∀ order, Spells ReadError.shortage order (twoBlocks.readLines ⟨["a.c"]⟩)
        (interleaved.encode order)
        ({ twoBlocks with flow :=
            { blocks := [{}, { lines := [⟨0, 3⟩, ⟨0, 4⟩, ⟨0, 5⟩, ⟨1, 10⟩, ⟨1, 10⟩, ⟨1, 12⟩] }] } },
          ⟨["a.c", "b.hh"]⟩)) ∧
      (∃ lines c, twoBlocks.readLines ⟨["a.c"]⟩
        ⟨.big, 0, interleaved.encode .big ++ [0, 0, 0, 9]⟩ = .ok lines c) ∧
      ∃ s c, twoBlocks.readLines ⟨["a.c"]⟩ ⟨.big, 0, (interleaved.encode .big).take 79⟩ =
        .error (.shortage s) c := by
  have hblock : interleaved.block.toNat < twoBlocks.blockCount := by decide
  have hspells := (readLines_of_payload twoBlocks ⟨["a.c"]⟩ hblock).1
  have hfiles : FileTable.enter ⟨["a.c"]⟩ interleaved.names = ⟨["a.c", "b.hh"]⟩ := by decide
  have hflow : twoBlocks.flow.appendLines interleaved.block.toNat
      (interleaved.linesIn twoBlocks.file ⟨["a.c", "b.hh"]⟩) =
      { blocks := [{}, { lines := [⟨0, 3⟩, ⟨0, 4⟩, ⟨0, 5⟩, ⟨1, 10⟩, ⟨1, 10⟩, ⟨1, 12⟩] }] } := by
    decide
  rw [hfiles, hflow] at hspells
  have hlength : (interleaved.encode .big).length = 80 := by decide +kernel
  exact ⟨hblock, hspells, ⟨_, _, (hspells .big).whole 0 [0, 0, 0, 9]⟩,
    (hspells .big).cut 0 79 (by omega)⟩

end Routine

end ArcCoverage
