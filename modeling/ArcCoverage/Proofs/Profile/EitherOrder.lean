/-
# Files in either byte order

A file may be written by any operations of the writer: records of notes in a data file, blocks that do not
exist, a version that no reader knows. Most of these files are refused. `Profile.read_either_order` says
that the byte order has no part in it: both files of a draft are refused for the same reason, or both are
accepted and make the same profile.

| part of a file | found the same in either order by |
| --- | --- |
| the header | `Profile.openNotes_inOrder`, `Profile.openData_inOrder` |
| a record that the writer writes | `NotesProgress.step_framed`, `Profile.dataStep_framed` |

The second row is about the tag of a record, which tells a reader what to take: a reader takes words from
a payload that has texts, or texts from one that has words, only where this fails in both orders. A lines
record with a line zero is the exception (`DraftOperation.NamesLines`), since the zero announces a text.
-/
import ArcCoverage.Proofs.Format.EitherOrder
import ArcCoverage.Proofs.Profile.WrittenNotes

namespace ArcCoverage

/-! ## What the writer's operations write -/

/-- **An operation on a draft.** -/
inductive DraftOperation where
  | stamp (stamp : UInt32)
  | function (ident lineChecksum flowChecksum : UInt32) (name file : String) (line : UInt32)
  | blocks (count : Nat)
  | arcs (source : UInt32) (arcs : List ArcSpec)
  | lines (block : UInt32) (file : String) (numbers : List UInt32)
  | dataFunction (ident lineChecksum flowChecksum : UInt32)
  | arcCounters (counters : List Count)
  | objectSummary (runs : UInt32)
  | programSummary

namespace DraftOperation

/-- Whether lines that are written have numbers, which no line has that is numbered zero. -/
def NamesLines : DraftOperation → Prop
  | .lines _ _ numbers => 0 ∉ numbers
  | _ => True

instance (operation : DraftOperation) : Decidable operation.NamesLines := by
  cases operation <;> unfold NamesLines <;> infer_instance

end DraftOperation

/-- An empty file of a kind. -/
def FileKind.draft : FileKind → Version → Draft
  | .notes => Draft.notes
  | .data => Draft.data

namespace Draft

/-- A draft after an operation. -/
def apply (d : Draft) : DraftOperation → Draft
  | .stamp stamp => d.withStamp stamp
  | .function ident lineChecksum flowChecksum name file line =>
    d.function ident lineChecksum flowChecksum name file line
  | .blocks count => d.blocks count
  | .arcs source arcs => d.arcs source arcs
  | .lines block file numbers => d.lines block file numbers
  | .dataFunction ident lineChecksum flowChecksum => d.dataFunction ident lineChecksum flowChecksum
  | .arcCounters counters => d.arcCounters counters
  | .objectSummary runs => d.objectSummary runs
  | .programSummary => d.programSummary

/-- **A draft after some operations.** -/
def applyAll (d : Draft) (operations : List DraftOperation) : Draft := operations.foldl apply d

end Draft

/-- **The payloads that the writer's operations write** in each kind of record, for a version. -/
inductive RecordKind.Writes (v : Version) : RecordKind → List Item → Prop
  | function (ident lineChecksum flowChecksum : UInt32) (name file : String) (line : UInt32) :
    Writes v .function (.word ident ::
      ((Draft.notes v).checksums lineChecksum flowChecksum ++ [.text name, .text file, .word line]))
  | dataFunction (ident lineChecksum flowChecksum : UInt32) :
    Writes v .function
      (.word ident :: ((Draft.notes v).checksums lineChecksum flowChecksum ++ []))
  | lines (block : UInt32) (file : String) {numbers : List UInt32} (h : 0 ∉ numbers) :
    Writes v .lines
      (.word block :: .word 0 :: .text file :: (numbers.map .word ++ [.word 0, .text ""]))
  | words {kind : RecordKind} {payload : List Item} (hfunction : kind ≠ .function)
    (hlines : kind ≠ .lines) (h : OnlyWords payload) : Writes v kind payload

namespace Draft

variable {d : Draft} {operation : DraftOperation} {operations : List DraftOperation}

/-- **A draft that the writer's operations have made:** every record is one of theirs. -/
def Composed (d : Draft) : Prop :=
  ∀ r ∈ d.records, ∃ kind payload, r = ⟨RecordKind.tag kind, payload⟩ ∧ kind.Writes d.version payload

theorem composed_draft (kind : FileKind) (v : Version) : (kind.draft v).Composed := by
  cases kind <;> exact fun _ hr => absurd hr List.not_mem_nil

theorem Composed.tagged (h : d.Composed) : d.Tagged := by
  intro r hr
  obtain ⟨kind, payload, rfl, -⟩ := h r hr
  exact kind.tag_ne_zero

theorem Composed.push (h : d.Composed) {kind : RecordKind} {payload : List Item}
    (hwrites : kind.Writes d.version payload) : (d.push kind payload).Composed := by
  intro r hr
  rcases List.mem_append.1 hr with hr | hr
  · exact h r hr
  · exact ⟨kind, payload, List.mem_singleton.1 hr, hwrites⟩

/-- **An operation adds one of the writer's records,** or none. -/
theorem Composed.apply (h : d.Composed) (hlines : operation.NamesLines) :
    (d.apply operation).Composed := by
  cases operation with
  | stamp stamp => exact h
  | function ident lineChecksum flowChecksum name file line =>
    exact h.push (.function ident lineChecksum flowChecksum name file line)
  | blocks count => exact h.push (.words (by decide) (by decide) (.replicate count 0))
  | arcs source arcs =>
    exact h.push (.words (by decide) (by decide) (.cons (.flatMap (fun _ => .cons (.cons .nil)) arcs)))
  | lines block file numbers => exact h.push (.lines block file hlines)
  | dataFunction ident lineChecksum flowChecksum =>
    have hwrites := @RecordKind.Writes.dataFunction d.version ident lineChecksum flowChecksum
    rw [List.append_nil] at hwrites
    exact h.push hwrites
  | arcCounters counters =>
    exact h.push (.words (by decide) (by decide) (.flatMap (fun _ => .cons (.cons .nil)) counters))
  | objectSummary runs =>
    exact h.push (.words (by decide) (by decide) (.cons (.cons (.cons (.replicate _ 0)))))
  | programSummary => exact h.push (.words (by decide) (by decide) (.replicate _ 0))

/-- **Any operations add the writer's records.** -/
theorem Composed.applyAll (h : d.Composed) (hlines : ∀ operation ∈ operations, operation.NamesLines) :
    (d.applyAll operations).Composed := by
  induction operations generalizing d with
  | nil => exact h
  | cons operation operations ih =>
    rw [List.forall_mem_cons] at hlines
    exact ih (h.apply hlines.1) hlines.2

/-- The byte order may be chosen before an operation. -/
theorem apply_bigEndian (d : Draft) (operation : DraftOperation) :
    d.bigEndian.apply operation = (d.apply operation).bigEndian := by
  cases operation <;> rfl

/-- **The byte order may be chosen at any time.** -/
theorem applyAll_bigEndian (d : Draft) (operations : List DraftOperation) :
    d.bigEndian.applyAll operations = (d.applyAll operations).bigEndian := by
  induction operations generalizing d with
  | nil => rfl
  | cons operation operations ih =>
    change (d.bigEndian.apply operation).applyAll operations = _
    rw [apply_bigEndian, ih]
    rfl

theorem applyAll_append (d : Draft) (before after : List DraftOperation) :
    d.applyAll (before ++ after) = (d.applyAll before).applyAll after := List.foldl_append

theorem order_applyAll (d : Draft) (operations : List DraftOperation) :
    (d.applyAll operations).order = d.order := by
  induction operations generalizing d with
  | nil => rfl
  | cons operation operations ih =>
    refine (ih (d.apply operation)).trans ?_
    cases operation <;> rfl

end Draft

/-! ## Payloads -/

/-- The checksums of a function, as the readers expect them. -/
theorem Draft.checksums_notes {v : Version} (hv : v.isSupported) (lineChecksum flowChecksum : UInt32) :
    (Draft.notes v).checksums lineChecksum flowChecksum =
      if v.hasFlowChecksum then [.word lineChecksum, .word flowChecksum] else [.word lineChecksum] := by
  have hsecond : (Draft.notes v).hasFlowChecksum = v.hasFlowChecksum := hasFlowChecksum_eq hv
  rw [checksums, hsecond]

/-- What a function record of notes ends with; that of data has nothing there. -/
inductive NamesEnd : List Item → Prop
  | nil : NamesEnd []
  | names (name file : String) (line : UInt32) (hname : (Item.text name).words < UInt32.size)
    (hfile : (Item.text file).words < UInt32.size) : NamesEnd [.text name, .text file, .word line]

theorem NamesEnd.items_read {α : Type} {items : List Item} (h : NamesEnd items)
    (f : String → String → UInt32 → α) :
    ReadsItems (do
      let name ← Read.string
      let file ← Read.string
      let line ← Read.word
      return f name file line) items fun _ _ => True := by
  cases h with
  | nil => exact (Read.items_string_nil (Q := fun _ _ => False)).bind fun _ _ h => h.elim
  | names name file line hname hfile =>
    refine (Read.items_string hname _).then ((Read.items_string hfile _).then ?_)
    exact (Read.items_word line []).then (readsItems_pure trivial)

theorem FunctionRecord.items_read {v : Version} (hv : v.isSupported)
    (ident lineChecksum flowChecksum : UInt32) {rest : List Item} (hrest : NamesEnd rest) :
    ReadsItems (read v) (.word ident ::
      ((Draft.notes v).checksums lineChecksum flowChecksum ++ rest)) fun _ _ => True := by
  rw [Draft.checksums_notes hv]
  by_cases hchecksum : v.hasFlowChecksum
  · rw [if_pos hchecksum]
    refine (Read.items_word ident _).then ((Read.items_word lineChecksum _).then ?_)
    simp only [hchecksum, if_true]
    exact (Read.items_word flowChecksum rest).then (hrest.items_read _)
  · rw [if_neg hchecksum]
    refine (Read.items_word ident _).then ((Read.items_word lineChecksum _).then ?_)
    simp only [hchecksum]
    exact hrest.items_read _

namespace LineItem

/-- Numbers of lines and the end of a record. -/
theorem items_readSome_numbers {numbers : List UInt32} (hnumbers : 0 ∉ numbers) (fuel : Nat) :
    ReadsItems (readSome fuel) (numbers.map .word ++ [.word 0, .text ""]) fun _ _ => True := by
  induction numbers generalizing fuel with
  | nil =>
    cases fuel with
    | zero => exact readsItems_pure trivial
    | succ fuel =>
      refine (Read.items_word 0 _).then ((Read.items_string (by decide) []).then ?_)
      exact readsItems_pure trivial
  | cons number numbers ih =>
    rw [List.mem_cons, not_or] at hnumbers
    cases fuel with
    | zero => exact readsItems_pure trivial
    | succ fuel =>
      -- a number that is not zero announces no text
      refine (Read.items_word number _).then ?_
      rw [if_pos (bne_iff_ne.2 (Ne.symm hnumbers.1))]
      exact (ih hnumbers.2 fuel).bind fun _ _ _ => readsItems_pure trivial

/-- A file whose name stands first. If nothing of it is shown, the record ends there for the reader. -/
theorem items_readSome {file : String} (hfile : (Item.text file).words < UInt32.size)
    {numbers : List UInt32} (hnumbers : 0 ∉ numbers) (fuel : Nat) :
    ReadsItems (readSome fuel)
      (.word 0 :: .text file :: (numbers.map .word ++ [.word 0, .text ""])) fun _ _ => True := by
  cases fuel with
  | zero => exact readsItems_pure trivial
  | succ fuel =>
    refine (Read.items_word 0 _).then ((Read.items_string hfile _).then ?_)
    split_ifs
    · exact readsItems_pure trivial
    · exact (items_readSome_numbers hnumbers fuel).bind fun _ _ _ => readsItems_pure trivial

/-- The fuel is the number of bytes, which is the same in either order. -/
theorem items_readAll {items : List Item} {Q : List LineItem → List Item → Prop}
    (h : ∀ fuel, ReadsItems (readSome fuel) items Q) : ReadsItems readAll items Q := by
  intro position
  have hread (order : ByteOrder) : readAll (.ofItems order position items) =
      readSome ((Cursor.ofItems .little position items).rest.length + 1) (.ofItems order position items) := by
    rw [readAll, Cursor.length_rest_ofItems order .little]
  cases h ((Cursor.ofItems .little position items).rest.length + 1) position with
  | fails e hfails => exact .fails e fun order => (hread order) ▸ hfails order
  | takes a left position' hleft htakes =>
    exact .takes a left position' hleft fun order => (hread order).trans (htakes order)

end LineItem

namespace Routine

variable {payload : List Item}

theorem items_readArcsFrom (h : OnlyWords payload) (source n : Nat) (f : Routine) :
    ReadsItems (readArcsFrom source n f) payload fun _ _ => True := by
  induction n generalizing payload f with
  | zero => exact readsItems_pure trivial
  | succ n ih =>
    refine (Decode.items_ofRead (Read.items_word_of_onlyWords h)).bind fun destination _ h => ?_
    refine Decode.items_require_then (fun _ => ?_) _
    exact (Decode.items_ofRead (Read.items_word_of_onlyWords h)).bind fun _ _ h => ih h _

theorem items_readArcs (h : OnlyWords payload) (f : Routine) (words : UInt32) :
    ReadsItems (f.readArcs words) payload fun _ _ => True := by
  refine (Decode.items_ofRead (Read.items_word_of_onlyWords h)).bind fun source _ h => ?_
  exact Decode.items_require_then (fun _ => items_readArcsFrom h _ _ f) _

theorem items_readLines {block : UInt32}
    (h : ∀ fuel, ReadsItems (LineItem.readSome fuel) payload fun _ _ => True) (f : Routine)
    (files : FileTable) : ReadsItems (f.readLines files) (.word block :: payload) fun _ _ => True := by
  refine (Decode.items_ofRead (Read.items_word block payload)).then ?_
  refine Decode.items_require_then (fun _ => ?_) _
  exact (Decode.items_ofRead (LineItem.items_readAll h)).bind fun _ _ _ => readsItems_pure trivial

end Routine

namespace Profile

variable {payload : List Item}

theorem items_readSelection (p : Profile) {v : Version} (hv : v.isSupported) (words : UInt32)
    (ident lineChecksum flowChecksum : UInt32) (rest : List Item) :
    ReadsItems (p.readSelection v words) (.word ident ::
      ((Draft.notes v).checksums lineChecksum flowChecksum ++ rest)) fun _ _ => True := by
  refine (Decode.items_ofRead (Read.items_word ident _)).then ?_
  cases lastWithIdent ident p.routines with
  | none => exact readsItems_throw _
  | some i =>
    dsimp only
    cases p.routines[i]? with
    | none => exact readsItems_throw _
    | some f =>
      rw [Draft.checksums_notes hv]
      by_cases hchecksum : v.hasFlowChecksum
      · rw [if_pos hchecksum]
        refine (Decode.items_ofRead (Read.items_word lineChecksum _)).then ?_
        refine Decode.items_require_then (fun _ => ?_) _
        split_ifs
        · refine (Decode.items_ofRead (Read.items_word flowChecksum _)).then ?_
          refine Decode.items_require_then (fun _ => ?_) _
          exact readsItems_pure trivial
        · exact readsItems_pure trivial
      · rw [if_neg hchecksum]
        refine (Decode.items_ofRead (Read.items_word lineChecksum _)).then ?_
        refine Decode.items_require_then (fun _ => ?_) _
        simp only [hchecksum]
        exact readsItems_pure trivial

theorem items_readCounters (h : OnlyWords payload) (f : Routine) (words : UInt32) :
    ReadsItems (readCounters f words) payload fun _ _ => True := by
  have hcounters := Read.items_replicate_of_onlyWords
    (fun _ => Read.items_counter_of_onlyWords) h (words.toNat / 2)
  refine (Decode.items_ofRead hcounters).bind fun _ _ _ => ?_
  refine Decode.items_require_then (fun _ => ?_) _
  exact readsItems_pure trivial

theorem items_readRuns (h : OnlyWords payload) : ReadsItems readRuns payload fun _ _ => True := by
  refine (Read.items_word_of_onlyWords h).bind fun _ _ h => ?_
  refine (Read.items_word_of_onlyWords h).bind fun _ _ h => ?_
  exact (Read.items_word_of_onlyWords h).mono fun _ _ _ => trivial

end Profile

/-! ## Records -/

namespace RecordKind

variable {v : Version} {kind : RecordKind} {payload : List Item}

/-- **What the reader of notes does with a payload** of each kind does not depend on the byte order. -/
def NotesRead (v : Version) (payload : List Item) : RecordKind → Prop
  | .function => ReadsItems (FunctionRecord.read v) payload fun _ _ => True
  | .arcs => ∀ (f : Routine) words, ReadsItems (f.readArcs words) payload fun _ _ => True
  | .lines => ∀ (f : Routine) files, ReadsItems (f.readLines files) payload fun _ _ => True
  | _ => True

/-- **What the reader of data does with a payload** of each kind does not depend on the byte order. -/
def DataRead (p : Profile) (v : Version) (payload : List Item) : RecordKind → Prop
  | .function => ∀ words, ReadsItems (p.readSelection v words) payload fun _ _ => True
  | .arcCounters => ∀ f words, ReadsItems (Profile.readCounters f words) payload fun _ _ => True
  | .objectSummary => ReadsItems Profile.readRuns payload fun _ _ => True
  | _ => True

theorem Writes.notesRead (h : kind.Writes v payload) (hv : v.isSupported)
    (htext : ∀ s, .text s ∈ payload → (Item.text s).words < UInt32.size) :
    kind.NotesRead v payload := by
  cases h with
  | function ident lineChecksum flowChecksum name file line =>
    have hend : NamesEnd [.text name, .text file, .word line] :=
      .names name file line (htext name (by simp)) (htext file (by simp))
    exact FunctionRecord.items_read hv ident lineChecksum flowChecksum hend
  | dataFunction ident lineChecksum flowChecksum =>
    exact FunctionRecord.items_read hv ident lineChecksum flowChecksum .nil
  | lines block file hnumbers =>
    exact fun f files =>
      f.items_readLines (LineItem.items_readSome (htext file (by simp)) hnumbers) files
  | words hfunction hlines hpayload =>
    cases kind with
    | function => exact absurd rfl hfunction
    | lines => exact absurd rfl hlines
    | arcs => exact fun f words => f.items_readArcs hpayload words
    | _ => trivial

theorem Writes.dataRead (h : kind.Writes v payload) (p : Profile) (hv : v.isSupported) :
    kind.DataRead p v payload := by
  cases h with
  | function ident lineChecksum flowChecksum =>
    exact fun words => p.items_readSelection hv words ident lineChecksum flowChecksum _
  | dataFunction ident lineChecksum flowChecksum =>
    exact fun words => p.items_readSelection hv words ident lineChecksum flowChecksum _
  | lines => trivial
  | words hfunction hlines hpayload =>
    cases kind with
    | function => exact absurd rfl hfunction
    | arcCounters => exact fun f words => Profile.items_readCounters hpayload f words
    | objectSummary => exact Profile.items_readRuns hpayload
    | _ => trivial

end RecordKind

section Steps

variable {v : Version} {p : Profile} {kind : RecordKind} {payload : List Item}

/-- A step of notes looks at a payload only to read what the tag says. -/
theorem NotesProgress.step_congr {r r' : Record} (s : NotesProgress) (htag : r.tag = r'.tag)
    (hwords : r.words = r'.words) (hoffset : r.offset = r'.offset)
    (hfunction : r'.tag = RecordKind.function.tag →
      Decode.result (FunctionRecord.read v) r.payload = Decode.result (FunctionRecord.read v) r'.payload)
    (harcs : r'.tag = RecordKind.arcs.tag → ∀ f : Routine,
      Decode.result (f.readArcs r'.words) r.payload = Decode.result (f.readArcs r'.words) r'.payload)
    (hlines : r'.tag = RecordKind.lines.tag → ∀ f : Routine,
      Decode.result (f.readLines s.files) r.payload = Decode.result (f.readLines s.files) r'.payload) :
    step v s r = step v s r' := by
  have hadd (f : Routine) : s.addToFunction f r = s.addToFunction f r' := by
    unfold addToFunction
    rw [htag, hwords, hoffset]
    split_ifs with _ h₃ h₄
    · rfl
    · rw [harcs h₃]
    · rw [hlines h₄]
    · rfl
  unfold step
  rw [htag, hoffset]
  by_cases h : r'.tag = RecordKind.function.tag
  · rw [if_pos h, if_pos h, addFunction, addFunction, hfunction h]
  · rw [if_neg h, if_neg h]
    cases s.current with
    | some f => exact hadd f
    | none => rfl

/-- **A step of notes does not see the byte order.** -/
theorem NotesProgress.step_framed (h : kind.NotesRead v payload) (order order' : ByteOrder)
    (position : Nat) (s : NotesProgress) :
    step v s (DraftRecord.framed order position ⟨kind.tag, payload⟩) =
      step v s (DraftRecord.framed order' position ⟨kind.tag, payload⟩) := by
  refine step_congr s rfl rfl rfl ?_ ?_ ?_ <;> intro htag <;> obtain rfl := RecordKind.tag_inj.1 htag
  · exact Decode.result_ofItems (Decode.items_ofRead h) order order' (position + 8)
  · exact fun f => Decode.result_ofItems (h f _) order order' (position + 8)
  · exact fun f => Decode.result_ofItems (h f s.files) order order' (position + 8)

/-- A step of data looks at a payload only to read what the tag says. -/
theorem Profile.dataStep_congr {r r' : Record} (d : DataProgress) (htag : r.tag = r'.tag)
    (hwords : r.words = r'.words) (hoffset : r.offset = r'.offset)
    (hfunction : r'.tag = RecordKind.function.tag →
      Decode.result (p.readSelection v r'.words) r.payload =
        Decode.result (p.readSelection v r'.words) r'.payload)
    (hcounters : r'.tag = RecordKind.arcCounters.tag → ∀ f,
      Decode.result (readCounters f r'.words) r.payload =
        Decode.result (readCounters f r'.words) r'.payload)
    (hruns : r'.tag = RecordKind.objectSummary.tag →
      Decode.result (Decode.ofRead readRuns) r.payload =
        Decode.result (Decode.ofRead readRuns) r'.payload) :
    p.dataStep v d r = p.dataStep v d r' := by
  unfold dataStep
  rw [htag, hwords, hoffset]
  split_ifs with h₁ h₂ h₃ h₄
  · rfl
  · rw [hfunction h₁]
  · cases d.current.bind fun i => (p.routines[i]?).map (i, ·) with
    | none => rfl
    | some found =>
      dsimp only
      rw [hcounters h₃]
  · rw [hruns (beq_iff_eq.1 (Bool.and_eq_true_iff.1 h₄).1)]
  · rfl
  · rfl

/-- **A step of data does not see the byte order.** -/
theorem Profile.dataStep_framed (h : kind.DataRead p v payload) (order order' : ByteOrder)
    (position : Nat) (d : DataProgress) :
    p.dataStep v d (DraftRecord.framed order position ⟨kind.tag, payload⟩) =
      p.dataStep v d (DraftRecord.framed order' position ⟨kind.tag, payload⟩) := by
  refine dataStep_congr d rfl rfl rfl ?_ ?_ ?_ <;> intro htag <;> obtain rfl := RecordKind.tag_inj.1 htag
  · exact Decode.result_ofItems (h _) order order' (position + 8)
  · exact fun f => Decode.result_ofItems (h f _) order order' (position + 8)
  · exact Decode.result_ofItems (Decode.items_ofRead h) order order' (position + 8)

end Steps

/-! ## Headers -/

/-- A version that is known is read; any other is refused. -/
theorem Decode.items_version (v : Version) (items : List Item) :
    ReadsItems Decode.version (.word v.toWord :: items)
      fun w left => w = v ∧ v.isSupported ∧ left = items := by
  refine (items_ofRead (Read.items_word v.toWord items)).then ?_
  refine items_require_then (fun hsupported => ?_) _
  rw [Version.ofWord_toWord] at hsupported ⊢
  exact readsItems_pure ⟨rfl, hsupported, rfl⟩

namespace Profile

variable {d : Draft}

theorem items_notesHeader (d : Draft) :
    ReadsItems notesHeader d.items fun header left => header = (d.version, d.stamp) ∧
      d.version.isSupported ∧ left = d.records.flatMap DraftRecord.items := by
  refine (Decode.items_version d.version _).bind ?_
  rintro _ _ ⟨rfl, hsupported, rfl⟩
  refine (Decode.items_ofRead (Read.items_word d.stamp _)).then ?_
  exact readsItems_pure ⟨rfl, hsupported, rfl⟩

theorem items_dataHeader (p : Profile) (v : Version) (d : Draft) :
    ReadsItems (p.dataHeader v) d.items fun _ left => v = d.version ∧ d.version.isSupported ∧
      left = d.records.flatMap DraftRecord.items := by
  refine (Decode.items_version d.version _).bind ?_
  rintro _ _ ⟨rfl, hsupported, rfl⟩
  refine Decode.items_require_then (fun hversion => ?_) _
  refine (Decode.items_ofRead (Read.items_word d.stamp _)).then ?_
  exact Decode.items_require (fun _ => ⟨(beq_iff_eq.1 hversion).symm, hsupported, rfl⟩) _

/-- **The header of notes is taken alike** in either byte order, and the records stand behind it. -/
theorem openNotes_inOrder (p : Profile) (d : Draft) :
    (∃ e, ∀ order, p.openNotes (d.inOrder order).encode = .error e) ∨
      d.version.isSupported ∧ ∃ position, ∀ order, p.openNotes (d.inOrder order).encode =
        .ok ((d.version, d.stamp), .ofItems order position (d.records.flatMap DraftRecord.items)) := by
  unfold openNotes
  simp only [Draft.openFile_encode]
  by_cases hloaded : p.version.isSome
  · refine .inl ⟨.notesLoaded, fun order => ?_⟩
    rw [if_pos hloaded]
    rfl
  by_cases hkind : d.kind = .notes
  · simp only [hloaded, hkind, if_true]
    cases items_notesHeader d 4 with
    | fails e hfails =>
      refine .inl ⟨e, fun order => ?_⟩
      obtain ⟨c, hfails⟩ := hfails order
      simp only [bind, Except.bind, hfails]
      rfl
    | takes header left position hleft htakes =>
      obtain ⟨rfl, hsupported, rfl⟩ := hleft
      refine .inr ⟨hsupported, position, fun order => ?_⟩
      simp only [bind, Except.bind, htakes order]
      rfl
  · refine .inl ⟨.notNotes, fun order => ?_⟩
    rw [if_neg hloaded, if_neg hkind]
    rfl

/-- **The header of data is taken alike** in either byte order, and the records stand behind it. -/
theorem openData_inOrder (p : Profile) (d : Draft) :
    (∃ e, ∀ order, p.openData (d.inOrder order).encode = .error e) ∨
      d.version.isSupported ∧ ∃ position, ∀ order, p.openData (d.inOrder order).encode =
        .ok (d.version, .ofItems order position (d.records.flatMap DraftRecord.items)) := by
  unfold openData
  simp only [Draft.openFile_encode]
  cases p.version with
  | none => exact .inl ⟨.notesMissing, fun _ => rfl⟩
  | some v =>
    by_cases hkind : d.kind = .data
    · simp only [hkind, if_true]
      cases p.items_dataHeader v d 4 with
      | fails e hfails =>
        refine .inl ⟨e, fun order => ?_⟩
        obtain ⟨c, hfails⟩ := hfails order
        simp only [bind, Except.bind, hfails]
        rfl
      | takes header left position hleft htakes =>
        obtain ⟨rfl, hsupported, rfl⟩ := hleft
        refine .inr ⟨hsupported, position, fun order => ?_⟩
        simp only [bind, Except.bind, htakes order]
        rfl
    · refine .inl ⟨.notData, fun order => ?_⟩
      rw [if_neg hkind]
      rfl

/-! ## Files -/

/-- **Notes are read alike** in either byte order. -/
theorem readNotes_inOrder (p : Profile) (hcomposed : d.Composed) (hmeasured : d.Measured)
    (order order' : ByteOrder) :
    p.readNotes (d.inOrder order).encode = p.readNotes (d.inOrder order').encode := by
  unfold readNotes
  rcases p.openNotes_inOrder d with ⟨e, hrefused⟩ | ⟨hsupported, position, hopened⟩
  · rw [hrefused order, hrefused order']
  · have hstep (r : DraftRecord) (hr : r ∈ d.records) (s : NotesProgress) (position : Nat) :
        NotesProgress.step d.version s (r.framed order position) =
          NotesProgress.step d.version s (r.framed order' position) := by
      obtain ⟨kind, payload, rfl, hwrites⟩ := hcomposed r hr
      have htext (s : String) (hs : .text s ∈ payload) : (Item.text s).words < UInt32.size :=
        Nat.lt_of_le_of_lt (DraftRecord.words_le_of_mem hs) (hmeasured _ hr)
      exact NotesProgress.step_framed (hwrites.notesRead hsupported htext) order order' position s
    rw [hopened order, hopened order']
    dsimp only
    rw [Draft.run_ofItems hcomposed.tagged hmeasured hstep]

/-- **Data are read alike** in either byte order. -/
theorem readData_inOrder (p : Profile) (hcomposed : d.Composed) (hmeasured : d.Measured)
    (order order' : ByteOrder) :
    p.readData (d.inOrder order).encode = p.readData (d.inOrder order').encode := by
  unfold readData
  rcases p.openData_inOrder d with ⟨e, hrefused⟩ | ⟨hsupported, position, hopened⟩
  · rw [hrefused order, hrefused order']
  · have hstep (r : DraftRecord) (hr : r ∈ d.records) (s : DataProgress) (position : Nat) :
        p.dataStep d.version s (r.framed order position) =
          p.dataStep d.version s (r.framed order' position) := by
      obtain ⟨kind, payload, rfl, hwrites⟩ := hcomposed r hr
      exact dataStep_framed (hwrites.dataRead p hsupported) order order' position s
    rw [hopened order, hopened order']
    dsimp only
    rw [Draft.run_ofItems hcomposed.tagged hmeasured hstep]

/-- **The byte order does not matter.** Any operations of the writer make a file of either kind, for any
version; the big-endian one, with its order chosen at any time, is refused for the same reason as the
little-endian one, or accepted with the same profile and the same records passed over. -/
theorem read_either_order (p : Profile) (kind : FileKind) (v : Version)
    {before after : List DraftOperation}
    (hlines : ∀ operation ∈ before ++ after, operation.NamesLines)
    (hmeasured : ((kind.draft v).applyAll (before ++ after)).Measured) :
    let little := (kind.draft v).applyAll (before ++ after)
    let big := ((kind.draft v).applyAll before).bigEndian.applyAll after
    little.order = .little ∧ big.order = .big ∧
      p.readNotes little.encode = p.readNotes big.encode ∧
      p.readData little.encode = p.readData big.encode := by
  intro little big
  have hlittle : little.order = .little := by
    rw [Draft.order_applyAll]
    cases kind <;> rfl
  -- records keep no byte order, so one chosen in between is as good as one chosen last
  have hbig : big = little.inOrder .big := by
    change Draft.applyAll (Draft.bigEndian _) after = _
    rw [Draft.applyAll_bigEndian, ← Draft.applyAll_append]
    rfl
  have hsame : little = little.inOrder .little := by
    rw [← hlittle]
    rfl
  have hcomposed : little.Composed := (Draft.composed_draft kind v).applyAll hlines
  refine ⟨hlittle, by rw [hbig]; rfl, ?_, ?_⟩
  · rw [hbig]
    conv_lhs => rw [hsame]
    exact p.readNotes_inOrder hcomposed hmeasured .little .big
  · rw [hbig]
    conv_lhs => rw [hsame]
    exact p.readData_inOrder hcomposed hmeasured .little .big

/-- Notes of version 4.7 without records. -/
def blankNotes : Draft := FileKind.notes.draft ⟨0x34, 0x30, 0x37, 0x2a⟩

/-- Records of data on either side of a function of notes, with zero characters in its names. -/
def strays : List DraftOperation :=
  [.objectSummary 3, .function 7 1 2 "ma\x00in" "a.c" 3, .blocks 2, .arcs 0 [⟨1, 0⟩],
    .lines 1 "b\x00.c" [4, 5], .arcCounters [1]]

/-- **Notes with strays are accepted** in both byte orders, the second of which is chosen before the stamp;
with arcs at their end that leave a third block of two, they are refused in both. -/
theorem read_either_order_of_strays :
    ((∀ operation ∈ strays ++ [DraftOperation.stamp 5], operation.NamesLines) ∧
      (blankNotes.applyAll (strays ++ [DraftOperation.stamp 5])).Measured ∧
      readNotes {} (blankNotes.applyAll (strays ++ [DraftOperation.stamp 5])).encode =
        readNotes {} ((blankNotes.applyAll strays).bigEndian.applyAll [DraftOperation.stamp 5]).encode ∧
      (readNotes {} (blankNotes.applyAll (strays ++ [DraftOperation.stamp 5])).encode).failure = none) ∧
    (∀ operation ∈ strays ++ [DraftOperation.arcs 2 []], operation.NamesLines) ∧
      (blankNotes.applyAll (strays ++ [DraftOperation.arcs 2 []])).Measured ∧
      readNotes {} (blankNotes.applyAll (strays ++ [DraftOperation.arcs 2 []])).encode =
        readNotes {} ((blankNotes.applyAll strays).bigEndian.applyAll [DraftOperation.arcs 2 []]).encode ∧
      (readNotes {} (blankNotes.applyAll (strays ++ [DraftOperation.arcs 2 []])).encode).failure =
        some (.noSuchBlock "ma" 2 2) := by
  have hlines : ∀ operation ∈ strays ++ [DraftOperation.stamp 5], operation.NamesLines := by decide +kernel
  have hmeasured : (blankNotes.applyAll (strays ++ [DraftOperation.stamp 5])).Measured := by decide +kernel
  have hlines' : ∀ operation ∈ strays ++ [DraftOperation.arcs 2 []], operation.NamesLines := by decide +kernel
  have hmeasured' : (blankNotes.applyAll (strays ++ [DraftOperation.arcs 2 []])).Measured := by decide +kernel
  have haccepted := read_either_order {} .notes ⟨0x34, 0x30, 0x37, 0x2a⟩ hlines hmeasured
  have hrefused := read_either_order {} .notes ⟨0x34, 0x30, 0x37, 0x2a⟩ hlines' hmeasured'
  exact ⟨⟨hlines, hmeasured, haccepted.2.2.1, by decide +kernel⟩, hlines', hmeasured',
    hrefused.2.2.1, by decide +kernel⟩

end Profile

end ArcCoverage
