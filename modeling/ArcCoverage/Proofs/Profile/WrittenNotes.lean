/-
# Notes that were written are read back

`Draft.ofFunctions` writes the notes of some functions. The reader meets its records one at a time,
and knows this much behind each of them:

| behind | known | lemma |
| --- | --- | --- |
| all records of some functions | `NotesProgress.Tells` | `Draft.runs_ofFunctions` |
| some groups of a function | `NotesProgress.Within` | `Draft.runs_addGroups` |

A group takes `Within` to `Within` (`Within.runs_addGroup`), and a function and its blocks take `Tells`
to it (`Tells.runs_function`). `Profile.readNotes_ofFunctions` is what this comes to for a whole file.
-/
import ArcCoverage.Proofs.Format.Drafts
import ArcCoverage.Proofs.Profile.FunctionNotes
import ArcCoverage.Proofs.Profile.Headers
import Mathlib.Data.List.Induction

namespace ArcCoverage

/-! ## Writing functions -/

namespace Draft

/-- A group, written. -/
def addGroup (d : Draft) : NotesGroup → Draft
  | .arcs source specs => d.arcs source specs
  | .lines block file numbers => d.lines block file numbers

/-- The records that begin a function. -/
def beginFunction (d : Draft) (notes : FunctionNotes) : Draft :=
  (d.function notes.ident notes.lineChecksum notes.flowChecksum notes.name notes.file
    notes.startLine).blocks notes.blocks

/-- A function, written. -/
def addFunction (d : Draft) (notes : FunctionNotes) : Draft :=
  notes.groups.foldl addGroup (d.beginFunction notes)

/-- **The notes of some functions.** -/
def ofFunctions (order : ByteOrder) (v : Version) (stamp : UInt32) (functions : List FunctionNotes) :
    Draft :=
  functions.foldl addFunction { (Draft.notes v).withStamp stamp with order }

variable {d : Draft}

theorem extends_addGroup (d : Draft) (group : NotesGroup) : d.Extends (d.addGroup group) := by
  cases group <;> exact d.extends_push ..

theorem extends_beginFunction (d : Draft) (notes : FunctionNotes) :
    d.Extends (d.beginFunction notes) :=
  (d.extends_push ..).trans (extends_push ..)

theorem extends_addFunction (d : Draft) (notes : FunctionNotes) : d.Extends (d.addFunction notes) :=
  (d.extends_beginFunction notes).trans (extends_foldl extends_addGroup _ _)

theorem extends_ofFunctions (order : ByteOrder) (v : Version) (stamp : UInt32)
    (functions : List FunctionNotes) :
    Extends { (Draft.notes v).withStamp stamp with order } (ofFunctions order v stamp functions) :=
  extends_foldl extends_addFunction _ _

/-- The writer and the readers agree on which versions have a second checksum. -/
theorem hasFlowChecksum_eq (hv : d.version.isSupported) :
    d.hasFlowChecksum = d.version.hasFlowChecksum := by
  rw [Bool.eq_iff_iff]
  simp only [Version.isSupported, Version.isDigit, Bool.and_eq_true, decide_eq_true_iff,
    UInt8.le_iff_toNat_le, UInt8.reduceToNat] at hv
  simp only [hasFlowChecksum, Version.hasFlowChecksum, Version.majorNumber, Version.minorNumber,
    Bool.or_eq_true, Bool.and_eq_true, decide_eq_true_iff, bne_iff_ne, beq_iff_eq, ne_eq,
    ← UInt8.toNat_inj, UInt8.lt_iff_toNat_lt, UInt8.le_iff_toNat_le, gt_iff_lt, ge_iff_le,
    UInt8.reduceToNat]
  omega

end Draft

/-! ## Payloads -/

section Payloads

variable (order : ByteOrder) (position : Nat)

/-- **The payload of a function record is read back.** -/
theorem FunctionRecord.read_encode {d : Draft} (hv : d.version.isSupported) (r : FunctionRecord)
    {flowChecksum : UInt32}
    (hflow : r.flowChecksum = if d.version.hasFlowChecksum then flowChecksum else 0)
    (hname : '\x00' ∉ r.name.toList) (hfile : '\x00' ∉ r.file.toList)
    (hnameWords : (Item.text r.name).words < UInt32.size)
    (hfileWords : (Item.text r.file).words < UInt32.size) :
    ∃ c, FunctionRecord.read d.version ⟨order, position,
      (.word r.ident :: d.checksums r.lineChecksum flowChecksum ++
        [.text r.name, .text r.file, .word r.startLine] : List Item).flatMap (Item.encode order)⟩ =
      .ok r c := by
  refine EStateM.bind_leads (Read.word_item ..) ?_
  rw [Draft.checksums, Draft.hasFlowChecksum_eq hv]
  by_cases hchecksum : d.version.hasFlowChecksum
  · rw [if_pos hchecksum] at hflow
    simp only [hchecksum, if_true]
    refine EStateM.bind_leads (Read.word_item ..) ?_
    refine EStateM.bind_leads (Read.word_item ..) ?_
    refine EStateM.bind_leads (Read.string_item hname hnameWords) ?_
    refine EStateM.bind_leads (Read.string_item hfile hfileWords) ?_
    refine EStateM.bind_leads (Read.word_item ..) ?_
    exact ⟨_, EStateM.pure_eq_ok.2 ⟨by rw [← hflow], rfl⟩⟩
  · rw [if_neg hchecksum] at hflow
    simp only [hchecksum]
    refine EStateM.bind_leads (Read.word_item ..) ?_
    refine EStateM.bind_leads (EStateM.pure_eq_ok.2 ⟨rfl, rfl⟩) ?_
    refine EStateM.bind_leads (Read.string_item hname hnameWords) ?_
    refine EStateM.bind_leads (Read.string_item hfile hfileWords) ?_
    refine EStateM.bind_leads (Read.word_item ..) ?_
    exact ⟨_, EStateM.pure_eq_ok.2 ⟨by rw [← hflow], rfl⟩⟩

/-- Arcs from one block are read back. -/
theorem Routine.readArcsFrom_encode {f : Routine} (source : Nat) {specs : List ArcSpec}
    (hd : ∀ a ∈ specs, a.destination.toNat < f.blockCount) :
    ∃ c, readArcsFrom source specs.length f ⟨order, position,
      (specs.flatMap fun a => [Item.word a.destination, .word a.flags]).flatMap (Item.encode order)⟩ =
      .ok { f with flow := f.flow.addArcsFrom source specs } c := by
  induction specs generalizing f position with
  | nil => exact ⟨_, rfl⟩
  | cons a specs ih =>
    refine EStateM.bind_leads (Decode.ofRead_eq_ok.2 (Read.word_item ..)) ?_
    refine EStateM.bind_leads (requireBlock_eq_ok (u := ()).2 ⟨hd a List.mem_cons_self, rfl⟩) ?_
    refine EStateM.bind_leads (Decode.ofRead_eq_ok.2 (Read.word_item ..)) ?_
    refine ih _ (f := { f with flow := _ }) fun b hb => ?_
    rw [blockCount, FlowGraph.length_blocks_addArc]
    exact hd b (List.mem_cons_of_mem a hb)

/-- The length of a blocks record. -/
theorem DraftRecord.words_blocks (tag : UInt32) (n : Nat) :
    DraftRecord.words ⟨tag, List.replicate n (.word 0)⟩ = n := by
  rw [words]
  induction n with
  | zero => rfl
  | succ n ih => rw [List.replicate_succ, List.foldr_cons, ih, Item.words, Nat.add_comm]

/-- The length of a group of arcs. -/
theorem DraftRecord.words_arcs (tag source : UInt32) (specs : List ArcSpec) :
    DraftRecord.words ⟨tag, .word source :: specs.flatMap fun a => [.word a.destination, .word a.flags]⟩ =
      1 + 2 * specs.length := by
  simp only [words, List.foldr_cons, Item.words]
  induction specs with
  | nil => rfl
  | cons a specs ih =>
    simp only [List.flatMap_cons, List.cons_append, List.nil_append, List.foldr_cons,
      List.length_cons]
    omega

/-- **A group of arcs is read back.** -/
theorem Routine.readArcs_encode {f : Routine} {source : UInt32} {specs : List ArcSpec}
    (hvalid : (NotesGroup.arcs source specs).Valid f.blockCount)
    (hwords : 1 + 2 * specs.length < UInt32.size) :
    ∃ c, f.readArcs (UInt32.ofNat (1 + 2 * specs.length)) ⟨order, position,
      (.word source :: specs.flatMap fun a => [.word a.destination, .word a.flags] :
        List Item).flatMap (Item.encode order)⟩ =
      .ok { f with flow := f.flow.addArcsFrom source.toNat specs } c := by
  obtain ⟨hs, hd⟩ := hvalid
  have hlength : ((UInt32.ofNat (1 + 2 * specs.length)).toNat - 1) / 2 = specs.length := by
    rw [UInt32.toNat_ofNat_of_lt' hwords]
    omega
  refine EStateM.bind_leads (Decode.ofRead_eq_ok.2 (Read.word_item ..)) ?_
  refine EStateM.bind_leads (requireBlock_eq_ok (u := ()).2 ⟨hs, rfl⟩) ?_
  rw [hlength]
  exact readArcsFrom_encode order _ source.toNat hd

/-- Line numbers are read back up to the empty name. -/
theorem LineItem.readSome_encode {numbers : List UInt32} (hnumbers : 0 ∉ numbers) {fuel : Nat}
    (hfuel : numbers.length < fuel) :
    ∃ c, readSome fuel ⟨order, position,
      (numbers.map .word ++ [.word 0, .text ""] : List Item).flatMap (Item.encode order)⟩ =
      .ok (numbers.map .line) c := by
  induction numbers generalizing position fuel with
  | nil =>
    obtain ⟨fuel, rfl⟩ : ∃ n, fuel = n + 1 := ⟨fuel - 1, by simp at hfuel; omega⟩
    refine EStateM.bind_leads (Read.word_item ..) ?_
    exact EStateM.bind_leads (Read.string_item (by decide) (by decide)) ⟨_, rfl⟩
  | cons n numbers ih =>
    obtain ⟨fuel, rfl⟩ : ∃ n, fuel = n + 1 := ⟨fuel - 1, by simp at hfuel; omega⟩
    rw [List.mem_cons, not_or] at hnumbers
    have hn : (n != 0) = true := bne_iff_ne.2 (Ne.symm hnumbers.1)
    refine EStateM.bind_leads (Read.word_item ..) ?_
    obtain ⟨c, hrest⟩ := ih (position + 4) hnumbers.2 (by simpa using hfuel)
    simp only [hn, if_true]
    exact EStateM.bind_leads hrest ⟨_, rfl⟩

/-- Line numbers are put on the block, in the current file. -/
theorem Routine.addItems_lines (block file : Nat) (numbers : List UInt32) (f : Routine)
    (files : FileTable) :
    addItems block file (numbers.map .line) f files =
      ({ f with flow := f.flow.addLinesOf block file numbers }, files) := by
  induction numbers generalizing f with
  | nil => rfl
  | cons n numbers ih => exact ih _

/-- **A group of lines is read back.** -/
theorem Routine.readLines_encode {f : Routine} (files : FileTable) {block : UInt32} {file : String}
    {numbers : List UInt32} (hvalid : (NotesGroup.lines block file numbers).Valid f.blockCount)
    (hwords : (Item.text file).words < UInt32.size) :
    ∃ c, f.readLines files ⟨order, position,
      (.word block :: .word 0 :: .text file :: numbers.map .word ++ [.word 0, .text ""] :
        List Item).flatMap (Item.encode order)⟩ =
      .ok ({ f with flow := f.flow.addLinesOf block.toNat (files.intern file).1 numbers },
        (files.intern file).2) c := by
  obtain ⟨hblock, hfile, hzero, hnumbers⟩ := hvalid
  refine EStateM.bind_leads (Decode.ofRead_eq_ok.2 (Read.word_item ..)) ?_
  refine EStateM.bind_leads (requireBlock_eq_ok (u := ()).2 ⟨hblock, rfl⟩) ?_
  have hitems : ∃ c, LineItem.readAll ⟨order, position + 4,
      (.word 0 :: .text file :: numbers.map .word ++ [.word 0, .text ""] :
        List Item).flatMap (Item.encode order)⟩ = .ok (.file file :: numbers.map .line) c := by
    have hnonempty : file.isEmpty = false := by simpa using hfile
    have hfuel : numbers.length < ((.word 0 :: .text file :: numbers.map .word ++
        [.word 0, .text ""] : List Item).flatMap (Item.encode order)).length := by
      have hlength := DraftRecord.length_payload order
        ⟨0, .word 0 :: .text file :: numbers.map .word ++ [.word 0, .text ""]⟩
      have hle := DraftRecord.length_le_words
        ⟨0, .word 0 :: .text file :: numbers.map .word ++ [.word 0, .text ""]⟩
      simp only [List.length_append, List.length_cons, List.length_map, List.length_nil] at hlength hle
      omega
    refine EStateM.bind_leads (Read.word_item ..) ?_
    refine EStateM.bind_leads (Read.string_item hzero hwords) ?_
    simp only [hnonempty]
    obtain ⟨c, hrest⟩ := LineItem.readSome_encode order _ hnumbers hfuel
    exact EStateM.bind_leads hrest ⟨_, rfl⟩
  obtain ⟨c, hitems⟩ := hitems
  refine EStateM.bind_leads (Decode.ofRead_eq_ok.2 hitems) ⟨c, EStateM.pure_eq_ok.2 ⟨?_, rfl⟩⟩
  exact addItems_lines block.toNat (files.intern file).1 numbers f (files.intern file).2

end Payloads

/-! ## Records -/

namespace NotesProgress

section Steps

variable {order : ByteOrder} {position : Nat} {v : Version} {p : NotesProgress} {f : Routine}

/-- A function record begins the next function. -/
theorem step_function {d : Draft} (hv : d.version.isSupported) (r : FunctionRecord)
    {flowChecksum : UInt32}
    (hflow : r.flowChecksum = if d.version.hasFlowChecksum then flowChecksum else 0)
    (hname : '\x00' ∉ r.name.toList) (hfile : '\x00' ∉ r.file.toList)
    (hwords : DraftRecord.words ⟨RecordKind.function.tag, .word r.ident ::
      d.checksums r.lineChecksum flowChecksum ++ [.text r.name, .text r.file, .word r.startLine]⟩ <
        UInt32.size) :
    step d.version p (DraftRecord.framed order position ⟨RecordKind.function.tag, .word r.ident ::
      d.checksums r.lineChecksum flowChecksum ++ [.text r.name, .text r.file, .word r.startLine]⟩) =
      .ok { p with
        files := (p.files.intern r.file).2
        finished := p.routines
        current := some (.ofRecord r (p.files.intern r.file).1) } := by
  have hnameWords : (Item.text r.name).words < UInt32.size :=
    Nat.lt_of_le_of_lt (DraftRecord.words_le_of_mem (by simp)) hwords
  have hfileWords : (Item.text r.file).words < UInt32.size :=
    Nat.lt_of_le_of_lt (DraftRecord.words_le_of_mem (by simp)) hwords
  have hread := FunctionRecord.read_encode order (position + 8) hv r hflow hname hfile hnameWords
    hfileWords
  rw [step]
  refine (if_pos rfl).trans ?_
  have hresult := Decode.result_eq_ok.2 (hread.imp fun _ h => Decode.ofRead_eq_ok.2 h)
  exact Except.bind_eq_ok.2 ⟨r, hresult, rfl⟩

/-- A blocks record sets the blocks of the function begun last. -/
theorem step_blocks (hcurrent : p.current = some f) (hnil : f.flow.blocks = []) {n : Nat}
    (hwords : n < UInt32.size) :
    step v p (DraftRecord.framed order position
      ⟨RecordKind.blocks.tag, List.replicate n (.word 0)⟩) =
      .ok { p with
        current := some { f with flow := { f.flow with blocks := List.replicate n {} } } } := by
  simp only [step, addToFunction, DraftRecord.framed, RecordKind.tag_inj, reduceCtorEq, if_false,
    if_true, hcurrent, DraftRecord.words_blocks, UInt32.toNat_ofNat_of_lt' hwords]
  exact Except.bind_eq_ok.2 ⟨_, Routine.setBlockCount_eq_ok.2 ⟨hnil, rfl⟩, rfl⟩

/-- An arcs record adds arcs to the function begun last. -/
theorem step_arcs (hcurrent : p.current = some f) {source : UInt32} {specs : List ArcSpec}
    (hvalid : (NotesGroup.arcs source specs).Valid f.blockCount)
    (hwords : 1 + 2 * specs.length < UInt32.size) :
    step v p (DraftRecord.framed order position ⟨RecordKind.arcs.tag,
      .word source :: specs.flatMap fun a => [.word a.destination, .word a.flags]⟩) =
      .ok { p with
        current := some { f with flow := f.flow.addArcsFrom source.toNat specs } } := by
  have hread := Routine.readArcs_encode order (position + 8) hvalid hwords
  simp only [step, addToFunction, DraftRecord.framed, RecordKind.tag_inj, reduceCtorEq, if_false,
    if_true, hcurrent, DraftRecord.words_arcs]
  exact Except.bind_eq_ok.2 ⟨_, Decode.result_eq_ok.2 hread, rfl⟩

/-- A lines record adds lines to the function begun last. -/
theorem step_lines (hcurrent : p.current = some f) {block : UInt32} {file : String}
    {numbers : List UInt32} (hvalid : (NotesGroup.lines block file numbers).Valid f.blockCount)
    (hwords : (Item.text file).words < UInt32.size) :
    step v p (DraftRecord.framed order position ⟨RecordKind.lines.tag,
      .word block :: .word 0 :: .text file :: numbers.map .word ++ [.word 0, .text ""]⟩) =
      .ok { p with
        files := (p.files.intern file).2
        current := some
          { f with flow := f.flow.addLinesOf block.toNat (p.files.intern file).1 numbers } } := by
  have hread := Routine.readLines_encode order (position + 8) p.files hvalid hwords
  simp only [step, addToFunction, DraftRecord.framed, RecordKind.tag_inj, reduceCtorEq, if_false,
    if_true, hcurrent]
  exact Except.bind_eq_ok.2 ⟨_, Decode.result_eq_ok.2 hread, rfl⟩

end Steps

/-! ## Progress -/

/-- **All records of some functions are read.** -/
structure Tells (p : NotesProgress) (v : Version) (functions : List FunctionNotes) : Prop where
  names : p.files.names = (functions.flatMap FunctionNotes.files).eraseDups
  routines : List.Forall₂ (fun notes f => f.Matches p.files v notes) functions p.routines

/-- **Some functions and a part of the next one are read.** -/
structure Within (p : NotesProgress) (v : Version) (before : List FunctionNotes)
    (notes : FunctionNotes) : Prop where
  names : p.files.names = ((before ++ [notes]).flatMap FunctionNotes.files).eraseDups
  finished : List.Forall₂ (fun notes f => f.Matches p.files v notes) before p.finished
  current : ∃ f, p.current = some f ∧ f.Matches p.files v notes

variable {p : NotesProgress} {v : Version} {before : List FunctionNotes} {notes : FunctionNotes}

/-- Behind the last group of a function, the function is read. -/
theorem Within.tells (h : p.Within v before notes) : p.Tells v (before ++ [notes]) where
  names := h.names
  routines := by
    obtain ⟨f, hcurrent, hmatches⟩ := h.current
    rw [routines, hcurrent]
    exact List.rel_append h.finished (.cons hmatches .nil)

theorem tells_nil (v : Version) : Tells {} v [] := ⟨rfl, .nil⟩

end NotesProgress

/-! ## Reading what is written -/

namespace Draft

open NotesProgress

variable {d : Draft} {p : NotesProgress} {before : List FunctionNotes} {notes : FunctionNotes}

/-- **The records that begin a function** are read behind those of the functions before. -/
theorem runs_beginFunction (hv : d.version.isSupported) (hvalid : notes.Valid)
    (hmeasured : (d.beginFunction notes).Measured) (hruns : d.Runs (step d.version) {} p)
    (htells : p.Tells d.version before) :
    ∃ p', (d.beginFunction notes).Runs (step d.version) {} p' ∧
      p'.Within d.version before { notes with groups := [] } := by
  obtain ⟨hfirst, hblocksWords⟩ := hmeasured.of_push
  obtain ⟨-, hfunctionWords⟩ := hfirst.of_push
  rw [DraftRecord.words_blocks] at hblocksWords
  let r : FunctionRecord :=
    { ident := notes.ident
      lineChecksum := notes.lineChecksum
      flowChecksum := if d.version.hasFlowChecksum then notes.flowChecksum else 0
      name := notes.name
      file := notes.file
      startLine := notes.startLine }
  have hfunction := hruns.push fun _ =>
    step_function hv r rfl hvalid.name hvalid.file hfunctionWords
  have hblocks := hfunction.push fun _ => step_blocks rfl rfl hblocksWords
  refine ⟨_, hblocks, ?_, ?_, _, rfl, ?_⟩
  · refine (FileTable.names_intern_eraseDups htells.names notes.file).trans ?_
    simp [FunctionNotes.files]
  · exact htells.routines.imp fun _ _ h => h.mono (p.files.prefix_intern notes.file)
  · exact Routine.matches_begun r notes.blocks (p.files.getElem?_intern notes.file) rfl

/-- **A group is read** behind those before it. -/
theorem runs_addGroup {v : Version} {group : NotesGroup} (hvalid : group.Valid notes.blocks)
    (hmeasured : (d.addGroup group).Measured) (hruns : d.Runs (step v) {} p)
    (hwithin : p.Within v before notes) :
    ∃ p', (d.addGroup group).Runs (step v) {} p' ∧ p'.Within v before (notes.addGroup group) := by
  obtain ⟨f, hcurrent, hmatches⟩ := hwithin.current
  cases group with
  | arcs source specs =>
    obtain ⟨-, hwords⟩ := hmeasured.of_push
    rw [DraftRecord.words_arcs] at hwords
    rw [← hmatches.blockCount] at hvalid
    refine ⟨_, hruns.push fun _ => step_arcs hcurrent hvalid hwords, ?_, hwithin.finished, _, rfl, ?_⟩
    · refine hwithin.names.trans ?_
      simp [FunctionNotes.files_addGroup, NotesGroup.files]
    · exact hmatches.addArcsFrom (hmatches.blockCount ▸ hvalid)
  | lines block file numbers =>
    obtain ⟨-, hwords⟩ := hmeasured.of_push
    have hfileWords : (Item.text file).words < UInt32.size :=
      Nat.lt_of_le_of_lt (DraftRecord.words_le_of_mem (by simp)) hwords
    have hgrown := p.files.prefix_intern file
    rw [← hmatches.blockCount] at hvalid
    refine ⟨_, hruns.push fun _ => step_lines hcurrent hvalid hfileWords, ?_, ?_, _, rfl, ?_⟩
    · refine (FileTable.names_intern_eraseDups hwithin.names file).trans ?_
      simp [FunctionNotes.files_addGroup, NotesGroup.files]
    · exact hwithin.finished.imp fun _ _ h => h.mono hgrown
    · exact (hmatches.mono hgrown).addLinesOf (hmatches.blockCount ▸ hvalid)
        (p.files.getElem?_intern file)

/-- **All groups of a function are read.** -/
theorem runs_addGroups {v : Version} (groups : List NotesGroup)
    (hvalid : ∀ group ∈ groups, group.Valid notes.blocks)
    (hmeasured : (groups.foldl addGroup d).Measured) (hruns : d.Runs (step v) {} p)
    (hwithin : p.Within v before { notes with groups := [] }) :
    ∃ p', (groups.foldl addGroup d).Runs (step v) {} p' ∧
      p'.Within v before { notes with groups } := by
  -- the draft grows at its end, and so does the induction
  induction groups using List.reverseRecOn with
  | nil => exact ⟨p, hruns, hwithin⟩
  | append_singleton groups group ih =>
    rw [List.foldl_append, List.foldl_cons, List.foldl_nil] at hmeasured ⊢
    have hfirst := (extends_addGroup _ group).measured hmeasured
    obtain ⟨p', hruns', hwithin'⟩ := ih (fun g hg => hvalid g (List.mem_append_left _ hg)) hfirst
    refine runs_addGroup ?_ hmeasured hruns' hwithin'
    exact hvalid group (by simp)

/-- **A whole function is read** behind those before it. -/
theorem runs_addFunction {v : Version} (hv : v.isSupported) (hversion : d.version = v)
    (hvalid : notes.Valid) (hmeasured : (d.addFunction notes).Measured)
    (hruns : d.Runs (step v) {} p) (htells : p.Tells v before) :
    ∃ p', (d.addFunction notes).Runs (step v) {} p' ∧ p'.Tells v (before ++ [notes]) := by
  subst hversion
  have hbegun : (d.beginFunction notes).Measured :=
    (extends_foldl extends_addGroup _ notes.groups).measured hmeasured
  obtain ⟨p₁, hruns₁, hwithin₁⟩ := runs_beginFunction hv hvalid hbegun hruns htells
  obtain ⟨p₂, hruns₂, hwithin₂⟩ :=
    runs_addGroups notes.groups hvalid.group hmeasured hruns₁ hwithin₁
  exact ⟨p₂, hruns₂, hwithin₂.tells⟩

/-- **All functions are read.** -/
theorem runs_ofFunctions (order : ByteOrder) {v : Version} (hv : v.isSupported) (stamp : UInt32)
    {functions : List FunctionNotes} (hvalid : ∀ notes ∈ functions, notes.Valid)
    (hmeasured : (ofFunctions order v stamp functions).Measured) :
    ∃ p, (ofFunctions order v stamp functions).Runs (step v) {} p ∧ p.Tells v functions := by
  induction functions using List.reverseRecOn with
  | nil => exact ⟨{}, rfl, tells_nil v⟩
  | append_singleton functions notes ih =>
    rw [ofFunctions, List.foldl_append, List.foldl_cons, List.foldl_nil] at hmeasured ⊢
    have hfirst := (extends_addFunction _ notes).measured hmeasured
    have hversion : (ofFunctions order v stamp functions).version = v := by
      rw [(extends_ofFunctions order v stamp functions).header]
      rfl
    obtain ⟨p, hruns, htells⟩ := ih (fun n hn => hvalid n (List.mem_append_left _ hn)) hfirst
    exact runs_addFunction hv hversion (hvalid notes (by simp)) hmeasured hruns htells

end Draft

/-- The header of a notes file that was written is read back. -/
theorem Profile.openNotes_encode {d : Draft} (hkind : d.kind = .notes) (hv : d.version.isSupported)
    {p : Profile} (hp : p.version = none) :
    p.openNotes d.encode = .ok ((d.version, d.stamp), d.behindHeader) := by
  rw [d.behindHeader_eq]
  exact openNotes_eq_ok.2 ⟨hp, d.order, hkind ▸ Draft.hasHeader_encode hv, rfl⟩

/-- **Notes that were written are read back** by a profile that has none yet. -/
theorem Profile.readNotes_ofFunctions (order : ByteOrder) {v : Version} (hv : v.isSupported)
    (stamp : UInt32) {functions : List FunctionNotes} (hvalid : ∀ notes ∈ functions, notes.Valid)
    (hmeasured : (Draft.ofFunctions order v stamp functions).Measured) :
    let read := Profile.readNotes {} (Draft.ofFunctions order v stamp functions).encode
    read.failure = none ∧
      read.profile.version = some v ∧ read.profile.stamp = stamp ∧
      read.profile.runs = 0 ∧ read.profile.programs = 0 ∧
      read.profile.files.names = (functions.flatMap FunctionNotes.files).eraseDups ∧
      List.Forall₂ (fun notes f => f.Matches read.profile.files v notes) functions
        read.profile.routines := by
  obtain ⟨p, hruns, htells⟩ := Draft.runs_ofFunctions order hv stamp hvalid hmeasured
  have hextends := Draft.extends_ofFunctions order v stamp functions
  have hheader := hextends.header
  have htagged : (Draft.ofFunctions order v stamp functions).Tagged :=
    hextends.tagged fun r hr => absurd hr List.not_mem_nil
  have hrun := hruns.run_all htagged hmeasured
  have hopen : Profile.openNotes {} (Draft.ofFunctions order v stamp functions).encode =
      .ok ((v, stamp), (Draft.ofFunctions order v stamp functions).behindHeader) := by
    rw [openNotes_encode (by rw [hheader]; rfl) (by rw [hheader]; exact hv) rfl, hheader]
    rfl
  have hsolved : List.Forall₂ (fun notes f => f.Matches p.files v notes) functions
      (p.routines.map Routine.solve) := by
    rw [List.forall₂_map_right_iff]
    exact htells.routines.imp fun _ _ h => by rwa [h.solve_eq]
  simp only [readNotes, hopen, hrun, true_and]
  exact ⟨htells.names, hsolved⟩

/-- Two functions of two files, the second one begun in the file that the first one includes. -/
def FunctionNotes.callers : List FunctionNotes :=
  [{ ident := 1, lineChecksum := 5, flowChecksum := 6, name := "main", file := "main.c", startLine := 3
     blocks := 3
     groups := [.arcs 0 [⟨1, 0⟩], .arcs 1 [⟨2, 1⟩, ⟨0, 4⟩], .lines 1 "util.h" [7, 8], .lines 1 "main.c" [4],
       .lines 2 "main.c" [] ] },
   { ident := 2, lineChecksum := 7, flowChecksum := 8, name := "", file := "util.h", startLine := 7
     blocks := 0
     groups := [] }]

/-- The two functions are read back from a big-endian file of version 4.8. -/
theorem Profile.readNotes_callers :
    let v : Version := ⟨0x34, 0x30, 0x38, 0x2a⟩
    v.isSupported ∧ (∀ notes ∈ FunctionNotes.callers, notes.Valid) ∧
      (Draft.ofFunctions .big v 9 FunctionNotes.callers).Measured ∧
      (Profile.readNotes {} (Draft.ofFunctions .big v 9 FunctionNotes.callers).encode).failure = none ∧
      (Profile.readNotes {} (Draft.ofFunctions .big v 9 FunctionNotes.callers).encode).profile.files.names
        = ["main.c", "util.h"] := by
  have hv : Version.isSupported ⟨0x34, 0x30, 0x38, 0x2a⟩ := by decide
  have hvalid : ∀ notes ∈ FunctionNotes.callers, notes.Valid :=
    List.forall_mem_cons.2 ⟨⟨by decide +kernel, by decide +kernel, by decide +kernel⟩,
      List.forall_mem_singleton.2 ⟨by decide +kernel, by decide +kernel, by decide +kernel⟩⟩
  have hmeasured : (Draft.ofFunctions .big ⟨0x34, 0x30, 0x38, 0x2a⟩ 9 FunctionNotes.callers).Measured := by
    decide +kernel
  obtain ⟨hread, -, -, -, -, hnames, -⟩ := readNotes_ofFunctions .big hv 9 hvalid hmeasured
  exact ⟨hv, hvalid, hmeasured, hread, hnames.trans (by decide +kernel)⟩

end ArcCoverage
