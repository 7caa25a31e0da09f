/-
# Text without terminal control

A message that quotes an argument shows it without the control sequences that a terminal would act
on. Sequences start with an escape character (ECMA-48):

| after the escape | sequence | ends |
| --- | --- | --- |
| `[` | a control sequence | at the first of `@` … `~` |
| `]` | an operating system command | at a bell |
| `P`, `X`, `^`, `_` | a string | at the next escape, cancel or substitute |
| space … `/` | an escape with more characters | at the first of `0` … `~` |
| any other | a two-character escape | with it |

Cancel and substitute end every sequence, and an escape starts another. Outside of sequences control
characters are left out too, but for blanks; a blank within an escape or a control sequence ends it.
-/

namespace ArcCoverage.Text

/-- Where a character stands. -/
inductive ControlMode where
  | plain
  | escape
  | longEscape
  | sequence
  | command
  | string
  deriving DecidableEq, Repr

/-- Whether a control character is a blank: a tab, a line feed, a form feed or a carriage return. -/
def isControlBlank (c : Char) : Bool := c = '\t' || c = '\n' || c = '\x0c' || c = '\r'

/-- Whether a character acts on a terminal by itself. -/
def isControl (c : Char) : Bool := c.toNat < 0x20 || c = '\x7f'

namespace ControlMode

/-- Whether a sequence of this kind goes on to the next escape, whatever is in it. -/
def isOpaque : ControlMode → Bool
  | command | string => true
  | _ => false

/-- The mode behind a character that is no control character. -/
def behind : ControlMode → Char → ControlMode
  | plain, _ => plain
  | escape, '[' => sequence
  | escape, ']' => command
  | escape, 'P' | escape, 'X' | escape, '^' | escape, '_' => string
  | escape, c => if c < '0' then longEscape else if c ≤ '~' then plain else escape
  | longEscape, c => if '0' ≤ c && c ≤ '~' then plain else longEscape
  | sequence, c => if '@' ≤ c && c ≤ '~' then plain else sequence
  | command, _ => command
  | string, _ => string

/-- **Whether the next character is shown, and the mode behind it.** -/
def step (mode : ControlMode) (c : Char) : Bool × ControlMode :=
  if c = '\x1b' then (false, escape)
  else if c = '\x18' || c = '\x1a' then (false, plain)
  else if c = '\x07' && mode = command then (false, plain)
  else if isControlBlank c && !mode.isOpaque then (true, plain)
  else if isControl c then (false, mode)
  else (mode = plain, mode.behind c)

end ControlMode

/-- The characters that are shown of a text that begins in a mode. -/
def shownFrom : ControlMode → List Char → List Char
  | _, [] => []
  | mode, c :: cs =>
    let next := mode.step c
    if next.1 then c :: shownFrom next.2 cs else shownFrom next.2 cs

/-- **A text without terminal control.** -/
def withoutControl (text : String) : String := String.ofList (shownFrom .plain text.toList)

end ArcCoverage.Text
