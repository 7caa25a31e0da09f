/-
# The vocabulary of Itanium symbols

The words that letters stand for:

| letters | are | shown as |
| --- | --- | --- |
| `i`, `Dn` | `BasicType` | `int`, `std::nullptr_t` |
| `Sa`, `Ss` | `WellKnown` | `std::allocator`, `std::string` |
| `pl`, `nw` | `Operator` | `+`, `new` |
| `r`, `V`, `K` | `Qualifiers` | `restrict`, `volatile`, `const` |
-/

namespace ArcCoverage.Symbol.Encoding

/-- A type that has a name of its own, by its letters. -/
structure BasicType where
  letters : String
  text : String
  deriving DecidableEq, Repr

/-- The basic types. -/
def BasicType.all : List BasicType := [
  ⟨"v", "void"⟩, ⟨"w", "wchar_t"⟩, ⟨"b", "bool"⟩, ⟨"c", "char"⟩, ⟨"a", "signed char"⟩,
  ⟨"h", "unsigned char"⟩, ⟨"s", "short"⟩, ⟨"t", "unsigned short"⟩, ⟨"i", "int"⟩,
  ⟨"j", "unsigned int"⟩, ⟨"l", "long"⟩, ⟨"m", "unsigned long"⟩, ⟨"x", "long long"⟩,
  ⟨"y", "unsigned long long"⟩, ⟨"n", "__int128"⟩, ⟨"o", "unsigned __int128"⟩, ⟨"f", "float"⟩,
  ⟨"d", "double"⟩, ⟨"e", "long double"⟩, ⟨"g", "__float128"⟩, ⟨"z", "..."⟩, ⟨"Dd", "decimal64"⟩,
  ⟨"De", "decimal128"⟩, ⟨"Df", "decimal32"⟩, ⟨"Dh", "half"⟩, ⟨"Di", "char32_t"⟩,
  ⟨"Ds", "char16_t"⟩, ⟨"Du", "char8_t"⟩, ⟨"Da", "auto"⟩, ⟨"Dc", "decltype(auto)"⟩,
  ⟨"Dn", "std::nullptr_t"⟩]

/-- Whether a basic type is the one of some letters. -/
def BasicType.is (b : BasicType) (letters : String) : Bool := b.letters == letters

/-- The names that have letters of their own. -/
inductive WellKnown where
  | std
  | allocator
  | basicString
  | string
  | istream
  | ostream
  | iostream
  deriving DecidableEq, Repr

namespace WellKnown

/-- The letters of each name. -/
def all : List (String × WellKnown) := [
  ("St", std), ("Sa", allocator), ("Sb", basicString), ("Ss", string), ("Si", istream),
  ("So", ostream), ("Sd", iostream)]

/-- A name as it is shown. -/
def text : WellKnown → String
  | std => "std"
  | allocator => "std::allocator"
  | basicString => "std::basic_string"
  | string => "std::string"
  | istream => "std::basic_istream<char, std::char_traits<char> >"
  | ostream => "std::ostream"
  | iostream => "std::basic_iostream<char, std::char_traits<char> >"

/-- What the constructors of a class are called; `std` is no class. -/
def className? : WellKnown → Option String
  | std => none
  | allocator => some "allocator"
  | basicString => some "basic_string"
  | string => some "string"
  | istream => some "basic_istream"
  | ostream => some "ostream"
  | iostream => some "basic_iostream"

end WellKnown

/-- An operator, and how many operands it takes in an expression. -/
structure Operator where
  letters : String
  text : String
  operands : Nat
  deriving DecidableEq, Repr

namespace Operator

/-- The operators. -/
def all : List Operator := [
  ⟨"nw", "new", 3⟩, ⟨"na", "new[]", 3⟩, ⟨"dl", "delete", 1⟩, ⟨"da", "delete[]", 1⟩, ⟨"ps", "+", 1⟩,
  ⟨"ng", "-", 1⟩, ⟨"ad", "&", 1⟩, ⟨"de", "*", 1⟩, ⟨"co", "~", 1⟩, ⟨"pl", "+", 2⟩, ⟨"mi", "-", 2⟩,
  ⟨"ml", "*", 2⟩, ⟨"dv", "/", 2⟩, ⟨"rm", "%", 2⟩, ⟨"an", "&", 2⟩, ⟨"or", "|", 2⟩, ⟨"eo", "^", 2⟩,
  ⟨"aS", "=", 2⟩, ⟨"pL", "+=", 2⟩, ⟨"mI", "-=", 2⟩, ⟨"mL", "*=", 2⟩, ⟨"dV", "/=", 2⟩,
  ⟨"rM", "%=", 2⟩, ⟨"aN", "&=", 2⟩, ⟨"oR", "|=", 2⟩, ⟨"eO", "^=", 2⟩, ⟨"ls", "<<", 2⟩,
  ⟨"rs", ">>", 2⟩, ⟨"lS", "<<=", 2⟩, ⟨"rS", ">>=", 2⟩, ⟨"eq", "==", 2⟩, ⟨"ne", "!=", 2⟩,
  ⟨"lt", "<", 2⟩, ⟨"gt", ">", 2⟩, ⟨"le", "<=", 2⟩, ⟨"ge", ">=", 2⟩, ⟨"ss", "<=>", 2⟩,
  ⟨"nt", "!", 1⟩, ⟨"aa", "&&", 2⟩, ⟨"oo", "||", 2⟩, ⟨"pp", "++", 1⟩, ⟨"mm", "--", 1⟩,
  ⟨"cm", ",", 2⟩, ⟨"pm", "->*", 2⟩, ⟨"pt", "->", 2⟩, ⟨"cl", "()", 2⟩, ⟨"ix", "[]", 2⟩,
  ⟨"qu", "?:", 3⟩]

/-- Whether a space stands in front of an operator's name: it is a word. -/
def isWord (o : Operator) : Bool := ["nw", "na", "dl", "da"].contains o.letters

end Operator

/-- Qualifiers of a type or of a member function. -/
structure Qualifiers where
  isRestrict : Bool := false
  isVolatile : Bool := false
  isConst : Bool := false
  deriving DecidableEq, Repr

namespace Qualifiers

/-- Whether there are none. -/
def isEmpty (q : Qualifiers) : Bool := !q.isRestrict && !q.isVolatile && !q.isConst

/-- The words, in the order in which they are shown. -/
def words (q : Qualifiers) : List String :=
  (if q.isConst then ["const"] else []) ++ (if q.isVolatile then ["volatile"] else []) ++
    (if q.isRestrict then ["restrict"] else [])

end Qualifiers

/-- The kind of object that a member function is for. -/
inductive ObjectKind where
  | lvalue
  | rvalue
  deriving DecidableEq, Repr

/-- A kind of object as it is shown. -/
def ObjectKind.text : ObjectKind → String
  | lvalue => "&"
  | rvalue => "&&"

/-- Whether a character may stand in a name, apart from dots. -/
def isWordChar (c : Char) : Bool :=
  ('a' ≤ c && c ≤ 'z') || ('A' ≤ c && c ≤ 'Z') || ('0' ≤ c && c ≤ '9') || c == '_' || c == '$'

/-- Whether a character may stand in a name. -/
def isNameChar (c : Char) : Bool := isWordChar c || c == '.'

end ArcCoverage.Symbol.Encoding
