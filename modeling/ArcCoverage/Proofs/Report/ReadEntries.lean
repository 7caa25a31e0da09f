/-
# The intermediate format read back

Every line of the intermediate format is a keyword and fields. They are read off it as follows:

| line | what is read | reader |
| --- | --- | --- |
| `lcount:12,3` | line 12, the count 3 | `Written.listedLine?` |
| `function:10,4,f` | `f`, entered 4 times | `Written.listedFunction?` |
| `branch:12,taken` | line 12, and what became of a branch | `Written.listedBranch?` |

A function's name may hold commas and colons, since nothing stands behind it. For every reader a lemma says
what it reads of the line of an entry, which is nothing unless the entry is of the right kind.
-/
import ArcCoverage.Proofs.Text.Columns
import ArcCoverage.Report.Intermediate

namespace ArcCoverage

/-! ## Readers -/

namespace Written

/-- The fields behind a keyword. -/
def fields? (keyword text : String) : Option (List String) :=
  match Text.cut ':' text with
  | first :: rest => if first = keyword then some (Text.cut ',' (Text.glue ':' rest)) else none
  | [] => none

/-- **A line** and its count. -/
def listedLine? (text : String) : Option (Nat × Nat) :=
  match fields? "lcount" text with
  | some [n, count] => (Text.number? n).bind fun n => (Text.number? count).map fun c => (n, c)
  | _ => none

/-- **A function's name,** and how often it was entered. The name begins behind two fields. -/
def listedFunction? (text : String) : Option (String × Nat) :=
  match fields? "function" text with
  | some (_ :: entered :: name) => (Text.number? entered).map fun n => (Text.glue ',' name, n)
  | _ => none

/-- What became of a branch. -/
def state? : String → Option Intermediate.BranchState
  | "notexec" => some .notExecuted
  | "nottaken" => some .notTaken
  | "taken" => some .taken
  | _ => none

/-- **A branch of a line.** -/
def listedBranch? (text : String) : Option (Nat × Intermediate.BranchState) :=
  match fields? "branch" text with
  | some [n, state] => (Text.number? n).bind fun n => (state? state).map fun s => (n, s)
  | _ => none

end Written

/-! ## What they read of an entry -/

namespace Intermediate.Entry

/-- A covered line, and its count. -/
def line? : Entry → Option (Nat × Count)
  | line n count => some (n, count)
  | _ => none

/-- A function's name, and how often it was entered. -/
def function? : Entry → Option (String × Count)
  | function _ entered name => some (name, entered)
  | _ => none

/-- A branch of a line. -/
def branch? : Entry → Option (Nat × BranchState)
  | branch n state => some (n, state)
  | _ => none

/-- The word in front of an entry. -/
def keyword : Entry → String
  | file _ => "file"
  | function .. => "function"
  | line .. => "lcount"
  | branch .. => "branch"

/-- What stands behind it. -/
def content : Entry → String
  | file path => path
  | function startLine entered name => startLine.repr ++ "," ++ (entered.toNat.repr ++ "," ++ name)
  | line n count => n.repr ++ "," ++ count.toNat.repr
  | branch n state => n.repr ++ "," ++ state.text

theorem text_eq (entry : Entry) : entry.text = entry.keyword ++ ":" ++ entry.content := by
  cases entry with
  | file path => rfl
  | function startLine entered name =>
    change "function:" ++ startLine.repr ++ "," ++ entered.toNat.repr ++ "," ++ name = _
    simp only [content, String.append_assoc]
    rfl
  | line n count =>
    change "lcount:" ++ n.repr ++ "," ++ count.toNat.repr = _
    simp only [content, String.append_assoc]
    rfl
  | branch n state =>
    change "branch:" ++ n.repr ++ "," ++ state.text = _
    simp only [content, String.append_assoc]
    rfl

theorem fields?_text (word : String) (entry : Entry) :
    Written.fields? word entry.text =
      if entry.keyword = word then some (Text.cut ',' entry.content) else none := by
  have hcolon : ':' ∉ entry.keyword.toList := by
    cases entry with
    | file => exact (by decide : ':' ∉ "file".toList)
    | function => exact (by decide : ':' ∉ "function".toList)
    | line => exact (by decide : ':' ∉ "lcount".toList)
    | branch => exact (by decide : ':' ∉ "branch".toList)
  rw [Written.fields?, text_eq, Text.cut_append rfl, Text.cut_of_notMem hcolon, List.singleton_append]
  simp only [Text.glue_cut]

/-- A number in front of other fields. -/
theorem cut_repr (n : Nat) (rest : String) :
    Text.cut ',' (n.repr ++ "," ++ rest) = n.repr :: Text.cut ',' rest := by
  rw [Text.cut_append rfl, Text.cut_of_notMem (Text.notMem_repr (by decide) n), List.singleton_append]

/-- **Lines are read off their entries.** -/
theorem listedLine?_text (entry : Entry) :
    Written.listedLine? entry.text = entry.line?.map fun (n, count) => (n, count.toNat) := by
  cases entry with
  | line n count =>
    have hcut : Text.cut ',' (line n count).content = [n.repr, count.toNat.repr] := by
      rw [content, cut_repr, Text.cut_of_notMem (Text.notMem_repr (by decide) _)]
    have hfields := fields?_text "lcount" (line n count)
    rw [hcut] at hfields
    rw [Written.listedLine?, hfields]
    simp [keyword, line?, Text.number?_repr]
  | _ =>
    rw [Written.listedLine?, fields?_text]
    rfl

/-- **Functions are read off their entries.** -/
theorem listedFunction?_text (entry : Entry) :
    Written.listedFunction? entry.text = entry.function?.map fun (name, entered) => (name, entered.toNat) := by
  cases entry with
  | function startLine entered name =>
    have hcut : Text.cut ',' (function startLine entered name).content =
        startLine.repr :: entered.toNat.repr :: Text.cut ',' name := by
      rw [content, cut_repr, cut_repr]
    have hfields := fields?_text "function" (function startLine entered name)
    rw [hcut] at hfields
    rw [Written.listedFunction?, hfields]
    simp [keyword, function?, Text.number?_repr, Text.glue_cut]
  | _ =>
    rw [Written.listedFunction?, fields?_text]
    rfl

theorem state?_text (state : BranchState) : Written.state? state.text = some state := by
  cases state <;> rfl

/-- **Branches are read off their entries.** -/
theorem listedBranch?_text (entry : Entry) : Written.listedBranch? entry.text = entry.branch? := by
  cases entry with
  | branch n state =>
    have hstate : ',' ∉ state.text.toList := by cases state <;> decide
    have hcut : Text.cut ',' (branch n state).content = [n.repr, state.text] := by
      rw [content, cut_repr, Text.cut_of_notMem hstate]
    have hfields := fields?_text "branch" (branch n state)
    rw [hcut] at hfields
    rw [Written.listedBranch?, hfields]
    simp [keyword, branch?, Text.number?_repr, state?_text]
  | _ =>
    rw [Written.listedBranch?, fields?_text]
    rfl

end Intermediate.Entry

end ArcCoverage
