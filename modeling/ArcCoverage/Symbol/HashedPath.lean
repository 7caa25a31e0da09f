/-
# Symbols that spell a path

The older of two schemes for paths: `_ZN`, then every component behind its length, then `E`. The last
component may be a hash, an `h` and hexadecimal digits, which is not shown. In a component

| spelling | stands for |
| --- | --- |
| `..` | `::` |
| `$LT$`, `$GT$`, `$RF$`, `$BP$`, `$SP$`, `$LP$`, `$RP$`, `$C$` | `<`, `>`, `&`, `*`, `@`, `(`, `)`, `,` |
| `$u` hexadecimal digits `$` | that character |
| `_$` in front | `$` |

A spelling that is none of these ends the decoding of its component; the rest is shown as it is.
-/
import ArcCoverage.Symbol.Digit

namespace ArcCoverage.Symbol.HashedPath

/-- Components up to the `E`, and what stands behind it; at most `fuel` of them. -/
def components : Nat → List Char → Option (List (List Char) × List Char)
  | _, 'E' :: rest => some ([], rest)
  | 0, _ => none
  | fuel + 1, cs =>
    let digits := cs.takeWhile isDigit
    let rest := cs.dropWhile isDigit
    let length := decimalValue digits
    if digits.isEmpty || rest.length < length then none
    else (components fuel (rest.drop length)).map fun (names, behind) =>
      (rest.take length :: names, behind)

/-- What stands behind the start of a symbol, if it has one. -/
def body : List Char → Option (List Char)
  | '_' :: 'Z' :: 'N' :: rest => some rest
  | 'Z' :: 'N' :: rest => some rest
  | '_' :: '_' :: 'Z' :: 'N' :: rest => some rest
  | _ => none

/-- Whether a component is a hash. -/
def isHash : List Char → Bool
  | 'h' :: rest => rest.all fun c => (hexDigit? c).isSome
  | _ => false

/-- The character of a number in hexadecimal; none if it is a control character. -/
def codePoint? (digits : List Char) : Option Char :=
  let n := hexValue digits
  let lower := digits.all isSmallHexDigit
  let control := n < 0x20 || (0x7f ≤ n && n < 0xa0)
  if digits.isEmpty || !lower || control || !n.isValidChar then none else some (Char.ofNat n)

/-- The character of an escape, without its dollar signs. -/
def escape? (s : List Char) : Option Char :=
  match String.ofList s with
  | "SP" => some '@'
  | "BP" => some '*'
  | "RF" => some '&'
  | "LT" => some '<'
  | "GT" => some '>'
  | "LP" => some '('
  | "RP" => some ')'
  | "C" => some ','
  | _ =>
    match s with
    | 'u' :: digits => codePoint? digits
    | _ => none

/-- The next escape and what stands behind it. -/
def takeEscape (cs : List Char) : Option (Char × List Char) :=
  if cs.contains '$' then
    (escape? (cs.takeWhile (· != '$'))).map fun c => (c, (cs.dropWhile (· != '$')).drop 1)
  else none

/-- A component decoded; nothing is taken for a spelling behind the first that is none. -/
def unescape : Nat → List Char → List Char
  | 0, cs => cs
  | fuel + 1, cs =>
    match cs with
    | '.' :: '.' :: rest => ':' :: ':' :: unescape fuel rest
    | '$' :: rest =>
      match takeEscape rest with
      | some (c, behind) => c :: unescape fuel behind
      | none => cs
    | c :: rest => if rest.any fun d => d == '$' || d == '.' then c :: unescape fuel rest else cs
    | [] => []

/-- A component as it is shown. -/
def shown (component : List Char) : List Char :=
  let cs :=
    match component with
    | '_' :: '$' :: rest => '$' :: rest
    | cs => cs
  unescape cs.length cs

/-- The components that are shown: all, but for a hash at the end. -/
def visible : List (List Char) → List (List Char)
  | [] => []
  | [last] => if isHash last then [] else [last]
  | name :: names => name :: visible names

/-- Components with colons between them. -/
def text (names : List (List Char)) : String :=
  "::".intercalate ((visible names).map fun name => String.ofList (shown name))

/-- **The path that a symbol spells,** and what stands behind it. -/
def read (symbol : List Char) : Option (String × List Char) := do
  let cs ← body symbol
  if cs.any fun c => 0x80 ≤ c.toNat then none
  let (names, behind) ← components cs.length cs
  return (text names, behind)

end ArcCoverage.Symbol.HashedPath
