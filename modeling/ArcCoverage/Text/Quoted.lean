/-
# Quoted text

A character or a text between quotes. Within them

| character | written |
| --- | --- |
| NUL, tab, line feed, carriage return | `\0`, `\t`, `\n`, `\r` |
| backslash, the quote | behind a backslash |
| a hidden one (`isHidden`) | `\u{…}` with its number in hexadecimal |
| any other, also the other kind of quote | as it is |
-/
import ArcCoverage.Text.Hidden

namespace ArcCoverage.Text

/-- A character behind a backslash. -/
def escaped (c : Char) : List Char := ['\\', c]

/-- A character by its number. -/
def numbered (c : Char) : List Char :=
  escaped 'u' ++ '\x7b' :: (Nat.toDigits 16 c.toNat ++ ['\x7d'])

/-- **A character within quotes.** -/
def quotedChar (quote c : Char) : List Char :=
  if c = '\x00' then escaped '0'
  else if c = '\t' then escaped 't'
  else if c = '\n' then escaped 'n'
  else if c = '\r' then escaped 'r'
  else if c = '\\' || c = quote then escaped c
  else if isHidden c then numbered c
  else [c]

end ArcCoverage.Text
