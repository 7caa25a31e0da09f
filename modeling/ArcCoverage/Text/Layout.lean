/-
# Laying out text

Cutting text at a character, into the lines of a file, and setting numbers in columns.

* `Text.split` cuts at every separator and `Text.join` puts the pieces together again
  (`join_split`), so no character is lost or moved.
* `Text.lines` reads a file's lines: each ends at a line feed, which a carriage return may precede,
  and the last may lack its end.
-/

namespace ArcCoverage.Text

/-- **The pieces between separators;** one more than there are separators. -/
def split (separator : Char) : List Char → List (List Char)
  | [] => [[]]
  | c :: cs =>
    if c = separator then [] :: split separator cs
    else
      match split separator cs with
      | [] => [[c]]
      | piece :: pieces => (c :: piece) :: pieces

theorem split_ne_nil (separator : Char) (cs : List Char) : split separator cs ≠ [] := by
  cases cs with
  | nil => simp [split]
  | cons c cs =>
    rw [split]
    split
    · simp
    · split <;> simp

/-- Pieces with separators between them. -/
def join (separator : Char) : List (List Char) → List Char
  | [] => []
  | [piece] => piece
  | piece :: pieces => piece ++ separator :: join separator pieces

theorem join_cons {pieces : List (List Char)} (separator : Char) (piece : List Char)
    (h : pieces ≠ []) : join separator (piece :: pieces) = piece ++ separator :: join separator pieces := by
  cases pieces with
  | nil => exact absurd rfl h
  | cons => rfl

/-- **Joining undoes splitting.** -/
theorem join_split (separator : Char) (cs : List Char) : join separator (split separator cs) = cs := by
  induction cs with
  | nil => rfl
  | cons c cs ih =>
    rw [split]
    split
    · next h => rw [join_cons _ _ (split_ne_nil _ _), ih, h, List.nil_append]
    · split
      · next h => exact absurd h (split_ne_nil _ _)
      · next piece pieces h =>
        rw [h] at ih
        cases pieces with
        | nil => simpa [join] using ih
        | cons => simpa [join] using ih

/-- A line without the carriage return at its end. -/
def dropReturn (line : List Char) : List Char :=
  if line.getLast? = some '\r' then line.dropLast else line

/-- The pieces of a split text that are lines: what follows the last line feed is one only if it
is not empty. -/
def linePieces : List (List Char) → List (List Char)
  | [] => []
  | [piece] => if piece.isEmpty then [] else [piece]
  | piece :: pieces => dropReturn piece :: linePieces pieces

/-- **The lines of a text.** A carriage return belongs to a line's end only before a line feed. -/
def lines (text : String) : List String :=
  (linePieces (split '\n' text.toList)).map String.ofList

/-- A text moved to the right end of a column. -/
def padLeft (width : Nat) (text : String) : String :=
  String.ofList (List.replicate (width - text.length) ' ') ++ text

/-- A text moved to the left end of a column. -/
def padRight (width : Nat) (text : String) : String :=
  text ++ String.ofList (List.replicate (width - text.length) ' ')

/-- A number in a column. -/
def padNat (width n : Nat) : String := padLeft width (toString n)

/-- The hexadecimal digits of a number, padded with zeros. -/
def hexDigits (width n : Nat) : List Char :=
  let digits := Nat.toDigits 16 n
  List.replicate (width - digits.length) '0' ++ digits

/-- A 32-bit word in hexadecimal, as in `0x0000beef`. -/
def hexWord (word : UInt32) : String := "0x" ++ String.ofList (hexDigits 8 word.toNat)

/-- A text that ends its line. -/
def line (text : String) : String := text ++ "\n"

/-- Texts, each on a line. -/
def unlines (texts : List String) : String := String.join (texts.map line)

end ArcCoverage.Text
