/-
# Annotated sources read back

What an annotated source tells of a file is read off its lines, by readers that know nothing of the rows
from which the lines were written:

| line | what is read | reader |
| --- | --- | --- |
| `        3:   12:text` | line 12, the count 3 | `Written.source?` |
| `function f called 4 returned 75% blocks executed 100%` | `f`, entered 4 times | `Written.function?` |
| `branch  0 taken 80% (fallthrough)` | its kind, its number and the words behind | `Written.numbered?` |

The line of a branch, of a call or of an unconditional arc stands below the row of its source line, whose
number it does not repeat (`Written.numbered`). A name may hold blanks and colons: it is what remains when
the words around it, whose number is known, are taken off.

For every reader a lemma says what it reads of the line of a row, which is nothing unless the row is of the
right kind. Rows of functions, calls and arcs begin with a word, the others with a blank, a digit or a mark.
-/
import ArcCoverage.Proofs.Text.Columns
import ArcCoverage.Report.Annotated
import ArcCoverage.Report.Intermediate
import Mathlib.Tactic.SplitIfs

namespace ArcCoverage

/-! ## What a row tells -/

/-- **A count as it stands in front of a line.** -/
def Count.shown (count : Count) : String := if count = 0 then "#####" else toString count

namespace Mark

theorem text_ran (count : Count) : (ran count).text = count.shown := rfl

/-- Marks are digits, or signs of which none separates words or fields. -/
theorem isDigit_or_of_mem_text {mark : Mark} {c : Char} (hc : c ∈ mark.text.toList) :
    c.isDigit = true ∨ c = '-' ∨ c = '#' := by
  cases mark with
  | uncovered => exact .inr (.inl (List.mem_singleton.1 hc))
  | ran count =>
    rw [text] at hc
    split_ifs at hc
    · exact .inr (.inr (List.eq_of_mem_replicate (n := 5) hc))
    · exact .inl (Text.isDigit_of_mem_repr hc)

theorem text_ran_ne (count : Count) : (ran count).text ≠ "-" := by
  rw [text_ran, Count.shown]
  split_ifs
  · decide
  · exact Text.repr_ne (c := '-') (by decide) (by decide)

end Mark

namespace Taken

/-- **What the text of a branch says,** in the words of the intermediate format. -/
def word (taken : Taken) : String :=
  let text := taken.text "taken"
  if text = "never executed" then "notexec"
  else if text = "taken 0" ∨ text = "taken 0%" then "nottaken"
  else "taken"

theorem text_times (count : Count) : (times count).text "taken" = "taken " ++ count.toNat.repr := rfl

theorem text_percent (n : Nat) : (percent n).text "taken" = "taken " ++ (n.repr ++ "%") := by
  rw [← String.append_assoc]
  rfl

theorem never_executed_ne (rest : String) : "taken " ++ rest ≠ "never executed" := by
  intro h
  have hhead := congrArg (fun s => s.toList.head?) h
  simp at hhead

/-- A branch that says how often it was taken says whether it was taken at all. -/
theorem word_eq_of_text {taken : Taken} {share : String}
    (h : taken.text "taken" = "taken " ++ share) :
    taken.word = if share = "0" ∨ share = "0%" then "nottaken" else "taken" := by
  have hzero : taken.text "taken" = "taken 0" ↔ share = "0" := by
    rw [h, show "taken 0" = "taken " ++ "0" from rfl, String.append_right_inj]
  have hpercent : taken.text "taken" = "taken 0%" ↔ share = "0%" := by
    rw [h, show "taken 0%" = "taken " ++ "0%" from rfl, String.append_right_inj]
  have hran : taken.text "taken" ≠ "never executed" := h ▸ never_executed_ne share
  simp only [word, hran, hzero, hpercent, if_false]

/-- What became of the branch. -/
def state : Taken → Intermediate.BranchState
  | never => .notExecuted
  | times count => if count = 0 then .notTaken else .taken
  | percent n => if n = 0 then .notTaken else .taken

theorem toNat_zero_iff {count : Count} : count.toNat.repr = "0" ∨ count.toNat.repr = "0%" ↔ count = 0 := by
  rw [Text.repr_zero_iff, ← UInt64.toNat_inj]
  rfl

theorem word_eq (taken : Taken) : taken.word = taken.state.text := by
  cases taken with
  | never => decide
  | times count =>
    rw [word_eq_of_text (text_times count), state]
    simp only [toNat_zero_iff]
    split_ifs <;> rfl
  | percent n =>
    rw [word_eq_of_text (text_percent n), state]
    simp only [Text.percent_zero_iff]
    split_ifs <;> rfl

/-- The words of how often an arc was taken. -/
def words (verb : String) : Taken → List String
  | never => ["never", "executed"]
  | times count => [verb, count.toNat.repr]
  | percent n => [verb, n.repr ++ "%"]

theorem notMem_percent {c : Char} (hc : c.isDigit = false) (hpercent : c ≠ '%') (n : Nat) :
    c ∉ (n.repr ++ "%").toList := by
  rw [String.toList_append, List.mem_append, not_or]
  exact ⟨Text.notMem_repr hc n, fun hmem => hpercent (List.mem_singleton.1 hmem)⟩

theorem words_text {verb : String} (hverb : ' ' ∉ verb.toList) (hne : verb ≠ "") (taken : Taken) :
    Text.words (taken.text verb) = taken.words verb := by
  cases taken with
  | never => exact (by decide : Text.words "never executed" = ["never", "executed"])
  | times count =>
    change Text.words (verb ++ " " ++ count.toNat.repr) = _
    rw [Text.words_append, Text.words_of_notMem hverb hne,
      Text.words_of_notMem (Text.notMem_repr (by decide) _) (Text.repr_ne_empty _)]
    rfl
  | percent n =>
    have hshare : n.repr ++ "%" ≠ "" := by simp
    change Text.words (verb ++ " " ++ n.repr ++ "%") = _
    rw [String.append_assoc, Text.words_append, Text.words_of_notMem hverb hne,
      Text.words_of_notMem (notMem_percent (by decide) (by decide) n) hshare]
    rfl

theorem colon_notMem_text {verb : String} (hverb : ':' ∉ verb.toList) (taken : Taken) :
    ':' ∉ (taken.text verb).toList := by
  have hfront : ':' ∉ (verb ++ " ").toList := by
    rw [String.toList_append, List.mem_append, not_or]
    exact ⟨hverb, by decide⟩
  cases taken with
  | never => exact (by decide : ':' ∉ "never executed".toList)
  | times count =>
    change ':' ∉ (verb ++ " " ++ count.toNat.repr).toList
    rw [String.toList_append, List.mem_append, not_or]
    exact ⟨hfront, Text.notMem_repr (by decide) _⟩
  | percent n =>
    change ':' ∉ (verb ++ " " ++ n.repr ++ "%").toList
    rw [String.append_assoc, String.toList_append, List.mem_append, not_or]
    exact ⟨hfront, notMem_percent (by decide) (by decide) n⟩

end Taken

namespace Detail

/-- The word for what a detail is about. -/
def Kind.word : Kind → String
  | block => "block"
  | call => "call"
  | branch => "branch"
  | unconditional => "unconditional"

/-- Different kinds have different words. -/
theorem Kind.word_inj {kind kind' : Kind} : kind.word = kind'.word ↔ kind = kind' := by
  cases kind <;> cases kind' <;> decide

/-- A branch. -/
def branch? : Detail → Option Taken
  | branch taken _ => some taken
  | _ => none

/-- What a detail says behind its number. -/
def told : Detail → String
  | block .. => ""
  | call returned => returned.text "returned"
  | branch taken fallthrough =>
    taken.text "taken" ++ if fallthrough && taken != .never then " (fallthrough)" else ""
  | unconditional taken => taken.text "taken"

/-- **The line of a detail that has a number:** what it is about, its number, and what it says. -/
theorem text_eq {d : Detail} (h : d.kind ≠ .block) (line number : Nat) :
    d.text line number = d.kind.word ++ " " ++ Text.padNat 2 number ++ " " ++ d.told := by
  cases d with
  | block => exact absurd rfl h
  | call returned => rfl
  | branch taken fallthrough => exact String.append_assoc
  | unconditional taken => rfl

theorem exists_words_told (taken : Taken) (fallthrough : Bool) :
    ∃ rest, Text.words (branch taken fallthrough).told = taken.words "taken" ++ rest := by
  have htaken := Taken.words_text (by decide : ' ' ∉ "taken".toList) (by decide) taken
  rw [told]
  split_ifs
  · refine ⟨["(fallthrough)"], ?_⟩
    rw [show " (fallthrough)" = " " ++ "(fallthrough)" from rfl, ← String.append_assoc,
      Text.words_append, htaken]
    rfl
  · exact ⟨[], by rw [String.append_empty, htaken, List.append_nil]⟩

theorem eq_block_of_kind {d : Detail} (h : d.kind = .block) : ∃ b count, d = .block b count := by
  cases d with
  | block b count => exact ⟨b, count, rfl⟩
  | _ => cases h

theorem colon_notMem_told (d : Detail) : ':' ∉ d.told.toList := by
  cases d with
  | block => exact (by decide : ':' ∉ "".toList)
  | call returned => exact returned.colon_notMem_text (by decide)
  | branch taken fallthrough =>
    rw [told, String.toList_append, List.mem_append, not_or]
    refine ⟨taken.colon_notMem_text (by decide), ?_⟩
    split_ifs <;> decide
  | unconditional taken => exact taken.colon_notMem_text (by decide)

theorem colon_notMem_text {d : Detail} (h : d.kind ≠ .block) (line number : Nat) :
    ':' ∉ (d.text line number).toList := by
  have hword (kind : Kind) : ':' ∉ kind.word.toList := by cases kind <;> decide
  simp only [text_eq h, String.toList_append, List.mem_append, not_or]
  exact ⟨⟨⟨⟨hword d.kind, by decide⟩, Text.notMem_padNat (by decide) (by decide) 2 number⟩, by decide⟩,
    colon_notMem_told d⟩

end Detail

/-! ## Readers -/

namespace Written

/-- A line's number, and what stands in front of it: one word, which is a count or a mark. -/
def source? (text : String) : Option (Nat × String) :=
  match Text.cut ':' text with
  | count :: number :: _ :: _ =>
    if ' ' ∈ (Text.unpad count).toList then none
    else (Text.number? (Text.unpad number)).map fun n => (n, Text.unpad count)
  | _ => none

/-- A count in front of a line; `#####` stands for zero. -/
def count? (count : String) : Option Nat := if count = "#####" then some 0 else Text.number? count

/-- **A covered line** and its count. -/
def line? (text : String) : Option (Nat × Nat) :=
  (source? text).bind fun (n, count) => (count? count).map fun c => (n, c)

/-- **A function's name,** and how often it was entered. The name ends where seven words are left. -/
def function? (text : String) : Option (String × Nat) :=
  match Text.cut ' ' text with
  | "function" :: words =>
    match words.reverse with
    | _ :: "executed" :: "blocks" :: _ :: "returned" :: entered :: "called" :: name =>
      (Text.number? entered).map fun n => (Text.glue ' ' name.reverse, n)
    | _ => none
  | _ => none

/-- **What is told of a line under a number:** of which kind it is, and in which words. -/
structure Numbered where
  line : Nat
  kind : String
  number : Nat
  told : List String
  deriving DecidableEq, Repr

/-- What a line of a call, a branch or an unconditional arc tells of the source line above it. -/
def numbered? (line : Nat) (text : String) : Option Numbered :=
  match Text.cut ' ' text with
  | kind :: rest =>
    if kind ∈ ["call", "branch", "unconditional"] then
      match rest.filter (· ≠ "") with
      | number :: told => (Text.number? number).map fun n => ⟨line, kind, n, told⟩
      | [] => none
    else none
  | [] => none

/-- **What is told of lines under numbers,** each below the row of its line. -/
def numbered (line : Nat) : List String → List Numbered
  | [] => []
  | text :: texts =>
    (numbered? line text).toList ++ numbered (((source? text).map Prod.fst).getD line) texts

/-- **What became of a branch.** -/
def branch? : Numbered → Option (Nat × Intermediate.BranchState)
  | ⟨line, "branch", _, "never" :: "executed" :: _⟩ => some (line, .notExecuted)
  | ⟨line, "branch", _, "taken" :: share :: _⟩ =>
    some (line, if share = "0" ∨ share = "0%" then .notTaken else .taken)
  | _ => none

/-! ## What they read of a row -/

/-- **A number in front of a source line** and what stands before it. -/
theorem source?_gutter {count : String} (hcolon : ':' ∉ count.toList) (hblank : ' ' ∉ count.toList)
    (n : Nat) (rest : String) : source? (Row.gutter count n ++ rest) = some (n, count) := by
  obtain ⟨piece, pieces, hrest⟩ := List.exists_cons_of_ne_nil (Text.cut_ne_nil ':' rest)
  have hcount : ':' ∉ (Text.padLeft 9 count).toList := Text.notMem_padLeft (by decide) hcolon 9
  have hnumber : ':' ∉ (Text.padNat 5 n).toList := Text.notMem_padNat (by decide) (by decide) 5 n
  rw [source?, Row.gutter, Text.cut_append rfl, Text.cut_append rfl, hrest, Text.cut_of_notMem hcount,
    Text.cut_of_notMem hnumber]
  simp only [List.cons_append, List.nil_append, Text.unpad_padLeft 9 hblank, if_neg hblank,
    Text.unpad_padNat, Text.number?_repr, Option.map_some]

theorem function?_eq_none {text : String} (h : ∀ c ∈ text.toList.head?, c.isAlpha = false) :
    function? text = none := by
  unfold function?
  split
  · next words hcut =>
    have hletter := h 'f' (by rw [Text.head?_of_cut hcut (by decide)]; rfl)
    exact absurd hletter (by decide)
  · rfl

/-- The kinds are words. -/
theorem exists_letter_of_mem_kinds {kind : String} (h : kind ∈ ["call", "branch", "unconditional"]) :
    ∃ c ∈ kind.toList.head?, c.isAlpha = true := by
  simp only [List.mem_cons, List.not_mem_nil, or_false] at h
  rcases h with rfl | rfl | rfl
  · exact ⟨'c', rfl, rfl⟩
  · exact ⟨'b', rfl, rfl⟩
  · exact ⟨'u', rfl, rfl⟩

theorem numbered?_eq_none {text : String} (h : ∀ c ∈ text.toList.head?, c.isAlpha = false) (line : Nat) :
    numbered? line text = none := by
  unfold numbered?
  split
  · next kind rest hcut =>
    refine if_neg fun hkind => ?_
    obtain ⟨c, hc, hletter⟩ := exists_letter_of_mem_kinds hkind
    have hne : kind ≠ "" := by
      rintro rfl
      cases hc
    rw [← Text.head?_of_cut hcut hne] at hc
    rw [h c hc] at hletter
    cases hletter
  · rfl

/-- **The line of a function is read back,** whatever blanks its name has. -/
theorem function?_called (name : String) (entered : Nat) {returned executed : String}
    (hreturned : ' ' ∉ returned.toList) (hexecuted : ' ' ∉ executed.toList) :
    function? ("function" ++ " " ++ name ++ " " ++ "called" ++ " " ++ entered.repr ++ " " ++ "returned" ++
      " " ++ returned ++ " " ++ "blocks" ++ " " ++ "executed" ++ " " ++ executed) =
        some (name, entered) := by
  have hcut (front back : String) :
      Text.cut ' ' (front ++ " " ++ back) = Text.cut ' ' front ++ Text.cut ' ' back :=
    Text.cut_append rfl front back
  have hword {word : String} (h : ' ' ∉ word.toList) := Text.cut_of_notMem h
  rw [function?]
  simp only [hcut]
  rw [hword hreturned, hword hexecuted, hword (Text.notMem_repr (by decide) entered),
    hword (by decide : ' ' ∉ "function".toList), hword (by decide : ' ' ∉ "called".toList),
    hword (by decide : ' ' ∉ "returned".toList), hword (by decide : ' ' ∉ "blocks".toList),
    hword (by decide : ' ' ∉ "executed".toList)]
  simp [Text.glue_cut, Text.number?_repr]

end Written

namespace Row

/-- The number of a line. -/
def number? : Row → Option Nat
  | source line _ _ => some line
  | _ => none

/-- A covered line, and its count as it is written. -/
def line? : Row → Option (Nat × String)
  | source line mark _ => if mark.text = "-" then none else some (line, mark.text)
  | _ => none

/-- A function's name, and how often it was entered. -/
def function? : Row → Option (String × Count)
  | function name entered _ _ => some (name, entered)
  | _ => none

/-- A branch of a line. -/
def branch? : Row → Option (Nat × Taken)
  | detail line _ d => d.branch?.map fun taken => (line, taken)
  | _ => none

/-- A line's number and its mark. At the head of a report stands line 0, without a count. -/
def marked? : Row → Option (Nat × String)
  | header .. => some (0, "-")
  | source line mark _ => some (line, mark.text)
  | _ => none

/-- A covered line and its count. -/
def counted? : Row → Option (Nat × Nat)
  | source line (.ran count) _ => some (line, count.toNat)
  | _ => none

/-- A detail that has a number. -/
def numbered? : Row → Option Written.Numbered
  | detail line number d =>
    if d.kind = .block then none else some ⟨line, d.kind.word, number, Text.words d.told⟩
  | _ => none

theorem numbered?_detail_eq_none_iff {line number : Nat} {d : Detail} :
    (detail line number d).numbered? = none ↔ d.kind = .block := by
  rw [numbered?]
  split_ifs with hkind
  · exact iff_of_true rfl hkind
  · exact iff_of_false nofun hkind

theorem exists_of_counted? {row : Row} {line : Nat × Nat} (h : row.counted? = some line) :
    ∃ n count text, row = source n (.ran count) text ∧ line = (n, count.toNat) := by
  cases row with
  | source n mark text =>
    cases mark with
    | uncovered => cases h
    | ran count => exact ⟨n, count, text, rfl, (Option.some.inj h).symm⟩
  | _ => cases h

theorem text_header (label value : String) :
    (header label value).text = gutter "-" 0 ++ (label ++ ":" ++ value) := by
  change gutter "-" 0 ++ label ++ ":" ++ value = _
  rw [String.append_assoc, String.append_assoc, String.append_assoc]

theorem text_source (line : Nat) (mark : Mark) (text : Option String) :
    (source line mark text).text = gutter mark.text line ++ text.getD "/*EOF*/" :=
  rfl

theorem text_detail (line number : Nat) (d : Detail) : (detail line number d).text = d.text line number :=
  rfl

theorem text_function (name : String) (entered : Count) (returned executed : Nat) :
    (function name entered returned executed).text =
      "function" ++ " " ++ name ++ " " ++ "called" ++ " " ++ entered.toNat.repr ++ " " ++ "returned" ++
        " " ++ (returned.repr ++ "%") ++ " " ++ "blocks" ++ " " ++ "executed" ++ " " ++
          (executed.repr ++ "%") := by
  change "function " ++ name ++ " called " ++ entered.toNat.repr ++ " returned " ++ returned.repr ++
    "% blocks executed " ++ executed.repr ++ "%" = _
  rw [← String.toList_inj]
  simp only [String.toList_append, List.append_assoc]
  rfl

theorem text_block (line number b : Nat) (count : Count) :
    (detail line number (.block b count)).text =
      Text.padLeft 9 (if count = 0 then "$$$$$" else toString count) ++ ":" ++
        (Text.padNat 5 line ++ "-block " ++ Text.padNat 2 b) := by
  rw [← String.append_assoc, ← String.append_assoc]
  rfl

end Row

namespace Written

/-- Rows with a column at the left do not begin with a word. -/
theorem isAlpha_head?_padLeft {text : String} (h : ∀ c ∈ text.toList, c.isAlpha = false)
    (hne : text ≠ "") (width : Nat) (rest : String) :
    ∀ c ∈ (Text.padLeft width text ++ rest).toList.head?, c.isAlpha = false := by
  intro c hc
  have hcolumn : (Text.padLeft width text).toList ≠ [] := by
    rw [Text.padLeft, String.toList_append]
    exact List.append_ne_nil_of_right_ne_nil _ (mt String.toList_eq_nil_iff.1 hne)
  obtain ⟨first, others, hfirst⟩ := List.exists_cons_of_ne_nil hcolumn
  rw [String.toList_append, hfirst] at hc
  obtain rfl := Option.some.inj hc
  have hmem : first ∈ (Text.padLeft width text).toList := hfirst ▸ List.mem_cons_self
  rw [Text.padLeft, String.toList_append, String.toList_ofList, List.mem_append] at hmem
  rcases hmem with hblank | hchar
  · rw [List.eq_of_mem_replicate hblank]
    rfl
  · exact h first hchar

/-- Letters stand behind all digits. -/
theorem isAlpha_of_isDigit {c : Char} (h : c.isDigit = true) : c.isAlpha = false := by
  have hnine : c.toNat ≤ 57 := (Char.isDigit_iff_toNat.1 h).2
  have hupper : c.isUpper = false := decide_eq_false fun hle => by
    have hle' : 65 ≤ c.toNat := UInt32.le_iff_toNat_le.1 hle.1
    omega
  have hbelow : decide (c.val ≥ 'a'.val) = false := decide_eq_false fun hle => by
    have hle' : 97 ≤ c.toNat := UInt32.le_iff_toNat_le.1 hle
    omega
  change (c.isUpper || (decide (c.val ≥ 'a'.val) && decide (c.val ≤ 'z'.val))) = false
  rw [hupper, hbelow, Bool.false_and, Bool.or_false]

theorem isAlpha_of_mem_mark {mark : Mark} {c : Char} (hc : c ∈ mark.text.toList) : c.isAlpha = false := by
  rcases Mark.isDigit_or_of_mem_text hc with hdigit | rfl | rfl
  · exact isAlpha_of_isDigit hdigit
  · rfl
  · rfl

theorem mark_text_ne_empty (mark : Mark) : mark.text ≠ "" := by
  cases mark with
  | uncovered => decide
  | ran count =>
    rw [Mark.text]
    split_ifs
    · decide
    · exact Text.repr_ne_empty _

/-- What stands before the first colon of a function's line, if there is one, is more than one word. -/
theorem source?_function (rest : String) : source? ("function" ++ (" " ++ rest)) = none := by
  rw [← String.append_assoc, show "function" ++ " " = "function " from rfl]
  obtain ⟨piece, pieces, hcut⟩ :=
    Text.exists_cut_append (by decide : ':' ∉ "function ".toList) rest
  have hblank : ' ' ∈ (Text.unpad ("function " ++ piece)).toList := by
    have hfront : ("function " ++ piece).toList.dropWhile (· = ' ') = ("function " ++ piece).toList := by
      rw [String.toList_append]
      rfl
    rw [Text.unpad, String.toList_ofList, hfront, String.toList_append]
    exact List.mem_append_left _ (by decide)
  rw [source?, hcut]
  split
  · next heq =>
    obtain ⟨rfl, -⟩ := List.cons.inj heq
    exact if_pos hblank
  · rfl

/-- The line of a block has one colon. -/
theorem source?_block (line number b : Nat) (count : Count) :
    source? (Row.detail line number (.block b count)).text = none := by
  have hcount : ':' ∉ (if count = 0 then "$$$$$" else toString count).toList := by
    split_ifs
    · decide
    · exact Text.notMem_repr (by decide) _
  have hrest : ':' ∉ (Text.padNat 5 line ++ "-block " ++ Text.padNat 2 b).toList := by
    simp only [String.toList_append, List.mem_append, not_or]
    exact ⟨⟨Text.notMem_padNat (by decide) (by decide) 5 line, by decide⟩,
      Text.notMem_padNat (by decide) (by decide) 2 b⟩
  rw [Row.text_block, source?, Text.cut_append rfl,
    Text.cut_of_notMem (Text.notMem_padLeft (by decide) hcount 9), Text.cut_of_notMem hrest]
  rfl

/-- **What stands in front of a source line** is read off every row that has it, and off no other. -/
theorem source?_text (row : Row) : source? row.text = row.marked? := by
  cases row with
  | header label value =>
    rw [Row.text_header, source?_gutter (by decide) (by decide)]
    rfl
  | source line mark text =>
    have hcolon : ':' ∉ mark.text.toList := fun hc => by
      rcases Mark.isDigit_or_of_mem_text hc with h | h | h <;> exact absurd h (by decide)
    have hblank : ' ' ∉ mark.text.toList := fun hc => by
      rcases Mark.isDigit_or_of_mem_text hc with h | h | h <;> exact absurd h (by decide)
    rw [Row.text_source, source?_gutter hcolon hblank]
    rfl
  | function name entered returned executed =>
    simp only [Row.text_function, String.append_assoc]
    exact source?_function _
  | detail line number d =>
    by_cases hkind : d.kind = .block
    · -- a block's line has a colon less
      obtain ⟨b, count, rfl⟩ := Detail.eq_block_of_kind hkind
      exact source?_block line number b count
    · have hcolon := Detail.colon_notMem_text hkind line number
      rw [source?, Row.text_detail, Text.cut_of_notMem hcolon]
      rfl

theorem count?_shown (count : Count) : count? count.shown = some count.toNat := by
  rw [Count.shown]
  split_ifs with hzero
  · rw [hzero]
    rfl
  · have hsigns : toString count ≠ "#####" := Text.repr_ne (c := '#') (by decide) (by decide)
    rw [count?, if_neg hsigns]
    exact Text.number?_repr count.toNat

/-- **Covered lines are read off their rows,** with their counts. -/
theorem line?_text (row : Row) : line? row.text = row.counted? := by
  rw [line?, source?_text]
  cases row with
  | source line mark text =>
    cases mark with
    | uncovered => rfl
    | ran count => exact congrArg (Option.map _) (count?_shown count)
  | _ => rfl

/-- Rows that begin with a word are those of functions and of details with a number. -/
theorem isAlpha_head?_text {row : Row} (hfunction : row.function? = none)
    (hnumbered : row.numbered? = none) : ∀ c ∈ row.text.toList.head?, c.isAlpha = false := by
  cases row with
  | header label value =>
    rw [Row.text_header, Row.gutter, String.append_assoc, String.append_assoc, String.append_assoc]
    exact isAlpha_head?_padLeft (fun c => @isAlpha_of_mem_mark .uncovered c) (by decide) 9 _
  | function name entered returned executed => cases hfunction
  | source line mark text =>
    rw [Row.text_source, Row.gutter, String.append_assoc, String.append_assoc, String.append_assoc]
    exact isAlpha_head?_padLeft (fun _ => isAlpha_of_mem_mark) (mark_text_ne_empty mark) 9 _
  | detail line number d =>
    obtain ⟨b, count, rfl⟩ := Detail.eq_block_of_kind (Row.numbered?_detail_eq_none_iff.1 hnumbered)
    have hcount : ∀ c ∈ (if count = 0 then "$$$$$" else toString count).toList, c.isAlpha = false := by
      intro c hc
      split_ifs at hc
      · rw [List.eq_of_mem_replicate (n := 5) (a := '$') hc]
        rfl
      · exact isAlpha_of_isDigit (Text.isDigit_of_mem_repr hc)
    have hne : (if count = 0 then "$$$$$" else toString count) ≠ "" := by
      split_ifs
      · decide
      · exact Text.repr_ne_empty _
    rw [Row.text_block, String.append_assoc]
    exact isAlpha_head?_padLeft hcount hne 9 _

/-- The line of a detail begins with its kind. -/
theorem cut_text_of_kind {d : Detail} (hkind : d.kind ≠ .block) (line number : Nat) :
    ∃ rest, Text.cut ' ' (d.text line number) = d.kind.word :: rest ∧
      rest.filter (· ≠ "") = number.repr :: Text.words d.told := by
  have hword : ' ' ∉ d.kind.word.toList := by cases d.kind <;> decide
  have htext : d.text line number = d.kind.word ++ " " ++ (Text.padNat 2 number ++ " " ++ d.told) := by
    simp only [Detail.text_eq hkind, String.append_assoc]
  refine ⟨Text.cut ' ' (Text.padNat 2 number ++ " " ++ d.told), ?_, ?_⟩
  · rw [htext, Text.cut_append rfl, Text.cut_of_notMem hword, List.singleton_append]
  · rw [← Text.words, Text.words_append, Text.words_padNat, List.singleton_append]

/-- **Functions are read off their rows.** -/
theorem function?_text (row : Row) :
    function? row.text = row.function?.map fun (name, entered) => (name, entered.toNat) := by
  cases hnumbered : row.numbered? with
  | none =>
    cases hfunction : row.function? with
    | none => exact function?_eq_none (isAlpha_head?_text hfunction hnumbered)
    | some found =>
      cases row with
      | function name entered returned executed =>
        rw [Row.text_function, function?_called name _ (Taken.notMem_percent (by decide) (by decide) _)
          (Taken.notMem_percent (by decide) (by decide) _), ← hfunction]
        rfl
      | _ => cases hfunction
  | some found =>
    -- a call or an arc begins with a word, but with another one
    cases row with
    | detail line number d =>
      have hkind : d.kind ≠ .block := by
        rw [ne_eq, ← @Row.numbered?_detail_eq_none_iff line number d, hnumbered]
        exact nofun
      obtain ⟨rest, hcut, -⟩ := cut_text_of_kind hkind line number
      rw [Row.text_detail, function?, hcut]
      cases d with
      | block => exact absurd rfl hkind
      | _ => rfl
    | _ => cases hnumbered

/-- **Details are read off their rows,** if they have a number. -/
theorem numbered?_text_of_detail (line number : Nat) (d : Detail) :
    numbered? line (Row.detail line number d).text = (Row.detail line number d).numbered? := by
  by_cases hkind : d.kind = .block
  · have hnone := (@Row.numbered?_detail_eq_none_iff line number d).2 hkind
    rw [hnone]
    exact numbered?_eq_none (isAlpha_head?_text rfl hnone) line
  · obtain ⟨rest, hcut, hwords⟩ := cut_text_of_kind hkind line number
    have hkinds : d.kind.word ∈ ["call", "branch", "unconditional"] := by
      cases hd : d.kind with
      | block => exact absurd hd hkind
      | call => decide
      | branch => decide
      | unconditional => decide
    rw [Row.numbered?, if_neg hkind, Row.text_detail, numbered?, hcut]
    simp only [if_pos hkinds, hwords, Text.number?_repr, Option.map_some]

/-- Other rows tell nothing under a number. -/
theorem numbered?_text_of_none {row : Row} (h : row.numbered? = none) (line : Nat) :
    numbered? line row.text = none := by
  cases hfunction : row.function? with
  | none => exact numbered?_eq_none (isAlpha_head?_text hfunction h) line
  | some found =>
    cases row with
    | function name entered returned executed =>
      simp only [Row.text_function, String.append_assoc]
      rw [← String.append_assoc, numbered?, Text.cut_append rfl,
        Text.cut_of_notMem (by decide : ' ' ∉ "function".toList)]
      rfl
    | _ => cases hfunction

/-- **A branch's words say what became of it.** -/
theorem branch?_numbered (row : Row) :
    row.numbered?.bind branch? = row.branch?.map fun (n, taken) => (n, taken.state) := by
  cases row with
  | detail line number d =>
    cases d with
    | block => rfl
    | call returned => rfl
    | unconditional taken => rfl
    | branch taken fallthrough =>
      obtain ⟨rest, hwords⟩ := Detail.exists_words_told taken fallthrough
      have hrow : (Row.detail line number (.branch taken fallthrough)).numbered? =
          some ⟨line, "branch", number, taken.words "taken" ++ rest⟩ := by
        rw [← hwords]
        rfl
      rw [hrow]
      change branch? _ = some (line, taken.state)
      cases taken with
      | never => rfl
      | times count =>
        change some (line, if _ then _ else _) = _
        rw [Taken.state]
        simp only [Taken.toNat_zero_iff]
      | percent n =>
        change some (line, if _ then _ else _) = _
        rw [Taken.state]
        simp only [Text.percent_zero_iff]
  | _ => rfl

end Written

namespace Annotated

variable {options : Options} {p : Profile} {group : FileGroup} {source : List String}

/-! ## Details below their lines -/

/-- Rows of functions are passed over. -/
theorem numbered_functions (line : Nat) (functions : List Routine) (texts : List String) :
    Written.numbered line ((functions.map (functionRow options)).map Row.text ++ texts) =
      Written.numbered line texts := by
  induction functions with
  | nil => rfl
  | cons f functions ih =>
    rw [List.map_cons, List.map_cons, List.cons_append, Written.numbered,
      Written.numbered?_text_of_none rfl, Written.source?_text]
    exact ih

/-- Details belong to the line that they stand below. -/
theorem numbered_number (line : Nat) (before ds : List Detail) (texts : List String) :
    Written.numbered line ((number line before ds).map Row.text ++ texts) =
      (number line before ds).filterMap Row.numbered? ++ Written.numbered line texts := by
  induction ds generalizing before with
  | nil => rfl
  | cons d ds ih =>
    rw [number, List.map_cons, List.cons_append, Written.numbered, Written.numbered?_text_of_detail,
      Written.source?_text, List.filterMap_cons]
    -- no line number is read off a detail, so the next one belongs to the same line
    change _ ++ Written.numbered line _ = _
    rw [ih]
    cases (Row.detail line (before.countP fun e => e.kind == d.kind) d).numbered? <;> rfl

theorem numbered_lineRows (line above : Nat) (texts : List String) :
    Written.numbered above ((lineRows options p group source line).map Row.text ++ texts) =
      (lineRows options p group source line).filterMap Row.numbered? ++ Written.numbered line texts := by
  rw [lineRows, List.map_cons, List.cons_append, Written.numbered, Written.numbered?_text_of_none rfl,
    Written.source?_text, List.filterMap_cons]
  -- the line that was read before is forgotten
  change Written.numbered line _ = _
  rw [numbered_number]
  rfl

/-- **Going along the lines,** each detail is read with the number of its line. -/
theorem numbered_body (above : Nat) (lines : List Nat) (functions : List Routine) :
    Written.numbered above ((body options p group source lines functions).map Row.text) =
      (body options p group source lines functions).filterMap Row.numbered? := by
  induction lines generalizing above functions with
  | nil => rfl
  | cons line lines ih =>
    have hnone (fs : List Routine) : (fs.map (functionRow options)).filterMap Row.numbered? = [] := by
      refine List.filterMap_eq_nil_iff.2 fun row hrow => ?_
      obtain ⟨f, -, rfl⟩ := List.mem_map.1 hrow
      rfl
    rw [body]
    split_ifs
    · rw [List.append_assoc, List.map_append, List.map_append, numbered_functions, numbered_lineRows, ih,
        List.filterMap_append, List.filterMap_append, hnone, List.nil_append]
    · rw [List.nil_append, List.map_append, numbered_lineRows, ih, List.filterMap_append]

/-- **Details are read off a report** with their lines. -/
theorem numbered_rows (origin : Provenance) :
    Written.numbered 0 ((rows options p group source origin).map Row.text) =
      (rows options p group source origin).filterMap Row.numbered? := by
  have hheader (label value : String) (texts : List String) :
      Written.numbered 0 ((Row.header label value).text :: texts) = Written.numbered 0 texts := by
    rw [Written.numbered, Written.numbered?_text_of_none rfl, Written.source?_text]
    rfl
  rw [rows, headers, List.map_append]
  simp only [List.map_cons, List.map_nil, List.cons_append, List.nil_append, hheader]
  exact numbered_body 0 _ _

end Annotated

end ArcCoverage
