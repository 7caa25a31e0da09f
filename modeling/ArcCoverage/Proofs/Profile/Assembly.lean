/-
# Functions as notes assemble them

A function begins without blocks; a blocks record gives it some, arcs records add arcs between them
and lines records add lines to them. `Routine.Assembled` holds of what any such records make, in any
order and number. Each operation has one lemma that says all it can do when it succeeds:

| operation | lemma |
| --- | --- |
| `Routine.setBlockCount` | `setBlockCount_eq_ok` |
| `Routine.readArcs` | `readArcs_eq_ok`: arcs between existing blocks, by `FlowGraph.AddsArcs` |
| `Routine.readLines` | `readLines_eq_ok`: lines of a list of items, none of them with number zero |

From these, assembled functions have right arc lists (`Assembled.wellFormed`) and no counts yet
(`Assembled.uncounted_flow`).
-/
import ArcCoverage.Profile.Routine
import ArcCoverage.Proofs.Flow.ArcLists
import Mathlib.Logic.Relation

namespace ArcCoverage

/-! ## Reading that succeeds -/

/-- **Two reads succeed** if the first does, and the second on what it left. -/
theorem EStateM.bind_eq_ok {ε σ α β : Type} {x : EStateM ε σ α} {f : α → EStateM ε σ β}
    {s s' : σ} {b : β} :
    (x >>= f) s = .ok b s' ↔ ∃ a m, x s = .ok a m ∧ f a m = .ok b s' := by
  change EStateM.bind x f s = _ ↔ _
  unfold EStateM.bind
  cases hx : x s with
  | ok a m => simp
  | error e m => simp

theorem Except.bind_eq_ok {ε α β : Type} {x : Except ε α} {f : α → Except ε β} {b : β} :
    (x >>= f) = .ok b ↔ ∃ a, x = .ok a ∧ f a = .ok b := by
  cases x with
  | ok a => simp [bind, Except.bind]
  | error e => simp [bind, Except.bind]

theorem EStateM.pure_eq_ok {ε σ α : Type} {a b : α} {s s' : σ} :
    (pure a : EStateM ε σ α) s = .ok b s' ↔ a = b ∧ s = s' := by
  change EStateM.Result.ok a s = _ ↔ _
  rw [EStateM.Result.ok.injEq]

/-- **A word is read back** where it was written. -/
theorem Read.word_encode (order : ByteOrder) (w : UInt32) (position : Nat) (rest : List UInt8) :
    Read.word ⟨order, position, order.encode w ++ rest⟩ = .ok w ⟨order, position + 4, rest⟩ := by
  obtain ⟨a, b, c, d, hbytes, hword⟩ := order.decode_encode w
  rw [hbytes, ← hword]
  simp [Read.word, Read.bytes, Read.wordOf, Cursor.advance]

namespace Decode

theorem require_eq_ok {condition : Bool} {otherwise : ReadError} {c c' : Cursor} {u : Unit} :
    require condition otherwise c = .ok u c' ↔ condition = true ∧ c = c' := by
  unfold require
  split_ifs with h
  · rw [EStateM.pure_eq_ok]
    simp [h]
  · refine iff_of_false (fun hfailed => ?_) fun hc => h hc.1
    change EStateM.Result.error otherwise c = _ at hfailed
    cases hfailed

theorem ofRead_eq_ok {α : Type} {read : Read α} {c c' : Cursor} {a : α} :
    (monadLift read : Decode α) c = .ok a c' ↔ read c = .ok a c' := by
  change ofRead read c = _ ↔ _
  unfold ofRead
  cases read c <;> simp

theorem result_eq_ok {α : Type} {decode : Decode α} {c : Cursor} {a : α} :
    result decode c = .ok a ↔ ∃ c', decode c = .ok a c' := by
  unfold result
  cases decode c <;> simp

end Decode

/-! ## Arcs -/

namespace FlowGraph

/-- One more arc between existing blocks. -/
def AddsArc (g g' : FlowGraph) : Prop :=
  ∃ source destination flags, source < g.blocks.length ∧ destination < g.blocks.length ∧
    g' = g.addArc source destination flags

/-- **Any number of arcs more.** -/
abbrev AddsArcs : FlowGraph → FlowGraph → Prop := Relation.ReflTransGen AddsArc

variable {g g' : FlowGraph}

theorem AddsArcs.wellFormed (h : AddsArcs g g') (hg : g.WellFormed) : g'.WellFormed := by
  induction h with
  | refl => exact hg
  | tail _ hstep ih =>
    obtain ⟨_, _, flags, hs, hd, rfl⟩ := hstep
    exact ih.addArc flags hs hd

theorem uncounted_addArc (g : FlowGraph) (source destination : Nat) (flags : UInt32) :
    (g.addArc source destination flags).uncounted =
      g.uncounted.addArc source destination flags := by
  simp only [addArc, uncounted, List.map_append, List.length_map]
  congr 1
  refine List.ext_getElem? fun i => ?_
  simp only [List.getElem?_map, List.getElem?_modify]
  cases g.blocks[i]? with
  | none => rfl
  | some b => by_cases hs : source = i <;> by_cases hd : destination = i <;>
      simp [hs, hd, Block.uncounted]

theorem uncounted_addLine (g : FlowGraph) (b : Nat) (line : SourceLine) :
    (g.addLine b line).uncounted = g.uncounted.addLine b line := by
  simp only [addLine, uncounted]
  congr 1
  refine List.ext_getElem? fun i => ?_
  simp only [List.getElem?_map, List.getElem?_modify]
  cases g.blocks[i]? with
  | none => rfl
  | some block => by_cases hb : b = i <;> simp [hb, Block.uncounted]

/-- Without counts, every block counts zero. -/
theorem count_blocks_of_uncounted (h : g.uncounted = g) : ∀ b ∈ g.blocks, b.count = 0 := by
  rw [← h]
  intro b hb
  obtain ⟨c, -, rfl⟩ := List.mem_map.1 hb
  rfl

/-- Without counts, every arc counts zero. -/
theorem count_arcs_of_uncounted (h : g.uncounted = g) : ∀ a ∈ g.arcs, a.count = 0 := by
  rw [← h]
  intro a ha
  obtain ⟨c, -, rfl⟩ := List.mem_map.1 ha
  rfl

theorem AddsArcs.uncounted (h : AddsArcs g g') (hg : g.uncounted = g) : g'.uncounted = g' := by
  induction h with
  | refl => exact hg
  | tail _ hstep ih =>
    obtain ⟨_, _, _, -, -, rfl⟩ := hstep
    rw [uncounted_addArc, ih]

end FlowGraph

namespace Routine

variable {f f' : Routine} {c c' : Cursor}

/-- **Blocks are set once:** only a function without any takes them. -/
theorem setBlockCount_eq_ok {n : Nat} : f.setBlockCount n = .ok f' ↔
    f.flow.blocks = [] ∧ f' = { f with flow := { f.flow with blocks := List.replicate n {} } } := by
  unfold setBlockCount
  split_ifs with h
  · simp only [Except.ok.injEq, List.isEmpty_iff.1 h, true_and]
    exact eq_comm
  · simp only [false_iff]
    exact fun hf => h (List.isEmpty_iff.2 hf.1)

theorem requireBlock_eq_ok {block : UInt32} {u : Unit} :
    f.requireBlock block c = .ok u c' ↔ block.toNat < f.blockCount ∧ c = c' := by
  rw [requireBlock, Decode.require_eq_ok, decide_eq_true_iff]

theorem readArcsFrom_eq_ok {source n : Nat} (hs : source < f.blockCount)
    (h : readArcsFrom source n f c = .ok f' c') :
    ∃ g, FlowGraph.AddsArcs f.flow g ∧ f' = { f with flow := g } := by
  induction n generalizing f c with
  | zero =>
    obtain ⟨rfl, -⟩ := EStateM.pure_eq_ok.1 h
    exact ⟨_, .refl, rfl⟩
  | succ n ih =>
    obtain ⟨destination, c₁, -, h⟩ := EStateM.bind_eq_ok.1 h
    obtain ⟨_, c₂, hblock, h⟩ := EStateM.bind_eq_ok.1 h
    obtain ⟨flags, c₃, -, h⟩ := EStateM.bind_eq_ok.1 h
    have hd := (requireBlock_eq_ok.1 hblock).1
    have hs' : source < (f.flow.addArc source destination.toNat flags).blocks.length := by
      rwa [FlowGraph.length_blocks_addArc]
    obtain ⟨g, hg, rfl⟩ := ih (f := { f with flow := _ }) hs' h
    exact ⟨g, .head ⟨source, destination.toNat, flags, hs, hd, rfl⟩ hg, rfl⟩

/-- **An arcs record adds arcs between existing blocks.** -/
theorem readArcs_eq_ok {words : UInt32} (h : f.readArcs words c = .ok f' c') :
    ∃ g, FlowGraph.AddsArcs f.flow g ∧ f' = { f with flow := g } := by
  obtain ⟨source, c₁, -, h⟩ := EStateM.bind_eq_ok.1 h
  obtain ⟨_, c₂, hblock, h⟩ := EStateM.bind_eq_ok.1 h
  exact readArcsFrom_eq_ok (requireBlock_eq_ok.1 hblock).1 h

/-! ## Lines -/

end Routine

namespace FileTable

variable {t : FileTable}

/-- Names keep their numbers. -/
theorem prefix_intern (t : FileTable) (name : String) : t.names <+: (t.intern name).2.names := by
  rw [names_intern]
  split_ifs
  · exact List.prefix_refl _
  · exact List.prefix_append _ _

theorem intern_lt_size (t : FileTable) (name : String) :
    (t.intern name).1 < (t.intern name).2.size := by
  unfold intern
  cases h : t.number? name with
  | some i => exact (List.idxOf?_eq_some_iff.1 h).1
  | none => simp [size]

end FileTable

namespace FlowGraph

variable {g g' : FlowGraph} {files : FileTable}

/-- Every line that some block covers, as often as it is listed. -/
def lines (g : FlowGraph) : List SourceLine := g.blocks.flatMap Block.lines

/-- One more line on a block, numbered from one and in a file of the table. -/
def AddsLine (files : FileTable) (g g' : FlowGraph) : Prop :=
  ∃ b line, 1 ≤ line.line ∧ line.file < files.size ∧ g' = g.addLine b line

/-- **Any number of lines more.** -/
abbrev AddsLines (files : FileTable) : FlowGraph → FlowGraph → Prop :=
  Relation.ReflTransGen (AddsLine files)

theorem mem_lines_addLine {b : Nat} {line l : SourceLine} (h : l ∈ (g.addLine b line).lines) :
    l ∈ g.lines ∨ l = line := by
  obtain ⟨block, hblock, hl⟩ := List.mem_flatMap.1 h
  obtain ⟨i, hi⟩ := List.mem_iff_getElem?.1 hblock
  simp only [addLine, List.getElem?_modify] at hi
  obtain ⟨old, hold, rfl⟩ := Option.map_eq_some_iff.1 hi
  have hmem : old ∈ g.blocks := List.mem_iff_getElem?.2 ⟨i, hold⟩
  split_ifs at hl
  · rcases List.mem_append.1 hl with hl | hl
    · exact .inl (List.mem_flatMap.2 ⟨old, hmem, hl⟩)
    · exact .inr (List.mem_singleton.1 hl)
  · exact .inl (List.mem_flatMap.2 ⟨old, hmem, hl⟩)

theorem AddsLines.wellFormed (h : AddsLines files g g') (hg : g.WellFormed) : g'.WellFormed := by
  induction h with
  | refl => exact hg
  | tail _ hstep ih =>
    obtain ⟨b, line, -, -, rfl⟩ := hstep
    exact ih.addLine b line

theorem AddsLines.uncounted (h : AddsLines files g g') (hg : g.uncounted = g) :
    g'.uncounted = g' := by
  induction h with
  | refl => exact hg
  | tail _ hstep ih =>
    obtain ⟨_, _, -, -, rfl⟩ := hstep
    rw [uncounted_addLine, ih]

/-- A line of the graph was there before, or it is one of those added. -/
theorem AddsLines.mem_lines (h : AddsLines files g g') {l : SourceLine} (hl : l ∈ g'.lines) :
    l ∈ g.lines ∨ 1 ≤ l.line ∧ l.file < files.size := by
  induction h with
  | refl => exact .inl hl
  | tail _ hstep ih =>
    obtain ⟨_, _, hpos, hfile, rfl⟩ := hstep
    rcases mem_lines_addLine hl with hl | rfl
    · exact ih hl
    · exact .inr ⟨hpos, hfile⟩

end FlowGraph

namespace LineItem

/-- The number of a line is not zero. -/
def IsNumbered : LineItem → Prop
  | line number => number ≠ 0
  | file _ => True

theorem readSome_isNumbered {fuel : Nat} {c c' : Cursor} {items : List LineItem}
    (h : readSome fuel c = .ok items c') : ∀ item ∈ items, item.IsNumbered := by
  induction fuel generalizing c c' items with
  | zero =>
    obtain ⟨rfl, -⟩ := EStateM.pure_eq_ok.1 h
    exact fun _ hm => absurd hm List.not_mem_nil
  | succ fuel ih =>
    obtain ⟨number, c₁, -, h⟩ := EStateM.bind_eq_ok.1 h
    split_ifs at h with hzero
    · obtain ⟨rest, c₂, hrest, h⟩ := EStateM.bind_eq_ok.1 h
      obtain ⟨rfl, -⟩ := EStateM.pure_eq_ok.1 h
      intro item hm
      rcases List.mem_cons.1 hm with rfl | hm
      · simpa [IsNumbered] using hzero
      · exact ih hrest item hm
    · obtain ⟨name, c₂, -, h⟩ := EStateM.bind_eq_ok.1 h
      split_ifs at h
      · obtain ⟨rfl, -⟩ := EStateM.pure_eq_ok.1 h
        exact fun _ hm => absurd hm List.not_mem_nil
      · obtain ⟨rest, c₃, hrest, h⟩ := EStateM.bind_eq_ok.1 h
        obtain ⟨rfl, -⟩ := EStateM.pure_eq_ok.1 h
        intro item hm
        rcases List.mem_cons.1 hm with rfl | hm
        · trivial
        · exact ih hrest item hm

end LineItem

namespace Routine

variable {f f' : Routine} {files files' : FileTable} {c c' : Cursor}

/-- **Items add lines** to one block, in files of the table that comes out. -/
theorem addItems_eq {block file : Nat} {items : List LineItem}
    (hitems : ∀ item ∈ items, item.IsNumbered) (hfile : file < files.size)
    (h : addItems block file items f files = (f', files')) :
    (∃ g, FlowGraph.AddsLines files' f.flow g ∧ f' = { f with flow := g }) ∧
      files.names <+: files'.names ∧ (files.names.Nodup → files'.names.Nodup) := by
  -- a name changes the current file, and a new one also the table, so both are arbitrary
  induction items generalizing file f files with
  | nil =>
    obtain ⟨rfl, rfl⟩ := Prod.mk.inj h
    exact ⟨⟨_, .refl, rfl⟩, List.prefix_refl _, id⟩
  | cons item items ih =>
    have htail : ∀ item ∈ items, item.IsNumbered := fun i hi => hitems i (List.mem_cons_of_mem _ hi)
    cases item with
    | line number =>
      obtain ⟨⟨g, hg, rfl⟩, hgrown, hnodup⟩ := ih htail hfile h
      have hpos : 1 ≤ number.toNat := by
        have hne : number ≠ 0 := hitems _ List.mem_cons_self
        rw [Nat.one_le_iff_ne_zero]
        exact fun h0 => hne (UInt32.toNat_inj.1 h0)
      have hlt : file < files'.size := Nat.lt_of_lt_of_le hfile hgrown.length_le
      exact ⟨⟨g, .head ⟨block, ⟨file, number.toNat⟩, hpos, hlt, rfl⟩ hg, rfl⟩, hgrown, hnodup⟩
    | file name =>
      obtain ⟨hlines, hgrown, hnodup⟩ := ih htail (files.intern_lt_size name) h
      exact ⟨hlines, (files.prefix_intern name).trans hgrown,
        fun hn => hnodup (FileTable.nodup_intern hn name)⟩

/-- **A lines record adds lines,** and names to the table. -/
theorem readLines_eq_ok (hfile : f.file < files.size)
    (h : f.readLines files c = .ok (f', files') c') :
    (∃ g, FlowGraph.AddsLines files' f.flow g ∧ f' = { f with flow := g }) ∧
      files.names <+: files'.names ∧ (files.names.Nodup → files'.names.Nodup) := by
  obtain ⟨block, c₁, -, h⟩ := EStateM.bind_eq_ok.1 h
  obtain ⟨_, c₂, -, h⟩ := EStateM.bind_eq_ok.1 h
  obtain ⟨items, c₃, hitems, h⟩ := EStateM.bind_eq_ok.1 h
  obtain ⟨h, -⟩ := EStateM.pure_eq_ok.1 h
  exact addItems_eq (LineItem.readSome_isNumbered (Decode.ofRead_eq_ok.1 hitems)) hfile h

/-! ## What records build -/

/-- **What blocks, arcs and lines records make of a function,** in any order and number. -/
inductive Assembled : Routine → Prop
  /-- A function record begins a function without blocks. -/
  | begun (r : FunctionRecord) (file : Nat) : Assembled (.ofRecord r file)
  | blocks {f f' : Routine} {n : Nat} (h : Assembled f) (read : f.setBlockCount n = .ok f') :
      Assembled f'
  | arcs {f f' : Routine} {words : UInt32} {c : Cursor} (h : Assembled f)
      (read : Decode.result (f.readArcs words) c = .ok f') : Assembled f'
  | lines {f f' : Routine} {files files' : FileTable} {c : Cursor} (h : Assembled f)
      (hfile : f.file < files.size)
      (read : Decode.result (f.readLines files) c = .ok (f', files')) : Assembled f'

/-- **Any arc between existing blocks is added** by some record. -/
theorem Assembled.addArc (h : f.Assembled) (source destination flags : UInt32)
    (hs : source.toNat < f.blockCount) (hd : destination.toNat < f.blockCount) :
    Assembled { f with flow := f.flow.addArc source.toNat destination.toNat flags } := by
  let c : Cursor := ⟨.little, 0, ByteOrder.little.encode source ++
    (ByteOrder.little.encode destination ++ (ByteOrder.little.encode flags ++ []))⟩
  refine .arcs h (Decode.result_eq_ok.2 ⟨⟨.little, 12, []⟩, ?_⟩ :
    Decode.result (f.readArcs 3) c = _)
  refine EStateM.bind_eq_ok.2 ⟨source, _, Decode.ofRead_eq_ok.2 (Read.word_encode ..), ?_⟩
  refine EStateM.bind_eq_ok.2 ⟨(), _, requireBlock_eq_ok.2 ⟨hs, rfl⟩, ?_⟩
  refine EStateM.bind_eq_ok.2 ⟨destination, _, Decode.ofRead_eq_ok.2 (Read.word_encode ..), ?_⟩
  refine EStateM.bind_eq_ok.2 ⟨(), _, requireBlock_eq_ok.2 ⟨hd, rfl⟩, ?_⟩
  refine EStateM.bind_eq_ok.2 ⟨flags, _, Decode.ofRead_eq_ok.2 (Read.word_encode ..), ?_⟩
  exact EStateM.pure_eq_ok.2 ⟨rfl, rfl⟩

/-- A function without blocks has no arcs, so its blocks can be set. -/
theorem wellFormed_setBlocks (h : f.flow.WellFormed) (hnil : f.flow.blocks = []) (n : Nat) :
    FlowGraph.WellFormed ⟨List.replicate n {}, f.flow.arcs⟩ := by
  have harcs : f.flow.arcs = [] := by
    refine List.eq_nil_iff_forall_not_mem.2 fun a ha => ?_
    have := h.source_lt a ha
    rw [hnil] at this
    exact Nat.not_lt_zero _ this
  rw [harcs]
  exact FlowGraph.wellFormed_empty n

/-- **Assembled functions have right arc lists.** -/
theorem Assembled.wellFormed (h : f.Assembled) : f.flow.WellFormed := by
  induction h with
  | begun r file => exact FlowGraph.wellFormed_empty 0
  | blocks _ read ih =>
    obtain ⟨hnil, rfl⟩ := setBlockCount_eq_ok.1 read
    exact wellFormed_setBlocks ih hnil _
  | arcs _ read ih =>
    obtain ⟨_, hread⟩ := Decode.result_eq_ok.1 read
    obtain ⟨g, hg, rfl⟩ := readArcs_eq_ok hread
    exact hg.wellFormed ih
  | lines _ hfile read ih =>
    obtain ⟨_, hread⟩ := Decode.result_eq_ok.1 read
    obtain ⟨⟨g, hg, rfl⟩, -, -⟩ := readLines_eq_ok hfile hread
    exact hg.wellFormed ih

/-- **Assembled functions have no counts.** -/
theorem Assembled.uncounted_flow (h : f.Assembled) : f.flow.uncounted = f.flow := by
  induction h with
  | begun r file => rfl
  | blocks _ read ih =>
    obtain ⟨hnil, rfl⟩ := setBlockCount_eq_ok.1 read
    have harcs := congrArg FlowGraph.arcs ih
    simp only [FlowGraph.uncounted] at harcs ⊢
    rw [harcs, List.map_replicate]
    rfl
  | arcs _ read ih =>
    obtain ⟨_, hread⟩ := Decode.result_eq_ok.1 read
    obtain ⟨g, hg, rfl⟩ := readArcs_eq_ok hread
    exact hg.uncounted ih
  | lines _ hfile read ih =>
    obtain ⟨_, hread⟩ := Decode.result_eq_ok.1 read
    obtain ⟨⟨g, hg, rfl⟩, -, -⟩ := readLines_eq_ok hfile hread
    exact hg.uncounted ih

theorem Assembled.count_blocks (h : f.Assembled) : ∀ b ∈ f.flow.blocks, b.count = 0 :=
  FlowGraph.count_blocks_of_uncounted h.uncounted_flow

theorem Assembled.count_arcs (h : f.Assembled) : ∀ a ∈ f.flow.arcs, a.count = 0 :=
  FlowGraph.count_arcs_of_uncounted h.uncounted_flow

end Routine

end ArcCoverage
