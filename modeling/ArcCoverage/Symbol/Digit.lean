/-
# Digits in symbols

Symbols hold numbers of base 10, 16, 36 and 62. Each base has its own digits:

| base | digits, from 0 |
| ---: | --- |
| 10 | `0` … `9` |
| 16 | `0` … `9`, `a` … `f` in either case |
| 36 | `0` … `9`, `A` … `Z` |
| 62 | `0` … `9`, `a` … `z`, `A` … `Z` |
-/

namespace ArcCoverage.Symbol

/-- Whether a character is a capital letter of ASCII. -/
def isCapital (c : Char) : Bool := 'A' ≤ c && c ≤ 'Z'

/-- Whether a character is a small letter of ASCII. -/
def isSmall (c : Char) : Bool := 'a' ≤ c && c ≤ 'z'

/-- The value of a decimal digit. -/
def digit? (c : Char) : Option Nat :=
  if '0' ≤ c && c ≤ '9' then some (c.toNat - '0'.toNat) else none

/-- Whether a character is a decimal digit. -/
def isDigit (c : Char) : Bool := (digit? c).isSome

/-- The number that decimal digits spell. -/
def decimalValue (digits : List Char) : Nat :=
  digits.foldl (fun n c => n * 10 + (digit? c).getD 0) 0

/-- The value of a hexadecimal digit, in either case. -/
def hexDigit? (c : Char) : Option Nat :=
  if isDigit c then digit? c
  else if 'a' ≤ c && c ≤ 'f' then some (c.toNat - 'a'.toNat + 10)
  else if 'A' ≤ c && c ≤ 'F' then some (c.toNat - 'A'.toNat + 10)
  else none

/-- Whether a character is a hexadecimal digit that is no capital letter. -/
def isSmallHexDigit (c : Char) : Bool := isDigit c || ('a' ≤ c && c ≤ 'f')

/-- The number that hexadecimal digits spell. -/
def hexValue (digits : List Char) : Nat :=
  digits.foldl (fun n c => n * 16 + (hexDigit? c).getD 0) 0

/-- The value of a digit of base 36. -/
def digit36? (c : Char) : Option Nat :=
  if isDigit c then digit? c
  else if isCapital c then some (c.toNat - 'A'.toNat + 10)
  else none

/-- The value of a digit of base 62. -/
def digit62? (c : Char) : Option Nat :=
  if isDigit c then digit? c
  else if isSmall c then some (c.toNat - 'a'.toNat + 10)
  else if isCapital c then some (c.toNat - 'A'.toNat + 36)
  else none

end ArcCoverage.Symbol
