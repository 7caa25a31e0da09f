/-
# The rules of the grammar

The grammar of Itanium symbols has a rule for every kind of piece that holds others. Rules refer to
each other, so what a rule reads is said in terms of the rules one level down: `Below` gives their
readings, and `Encoding.reading` ties the knot, level by level.
-/
import ArcCoverage.Symbol.Encoding.Token

namespace ArcCoverage.Symbol.Encoding

/-- **A rule, by what it reads.** -/
inductive Rule : Type → Type where
  /-- A symbol, or a type alone. -/
  | whole : Rule Whole
  /-- What is run before or after a program for a symbol. -/
  | program : Rule Whole
  | entity : Rule Entity
  /-- What a compiler adds for a type, an object or a function. -/
  | special : Rule Entity
  | name : Rule Name
  | nestedName : Rule Name
  | localName : Rule Name
  /-- A name without scope, or in `std`. -/
  | unscoped : Rule Part
  /-- A name in front of template arguments. -/
  | template : Rule Part
  /-- The scope and the name in a nested name. -/
  | scope : Rule Part
  /-- The next step of a scope behind those that were read; `none` at its end. -/
  | scopeStep (outer : Option Part) : Rule (Option Part)
  | unqualified : Rule Unqualified
  /-- The name of an operator, in an expression or of a function. -/
  | operator (inExpr : Bool) : Rule OperatorName
  /-- A constructor or a destructor. -/
  | structor : Rule Unqualified
  | closure : Rule Unqualified
  | closureParameters : Rule (List Part)
  | type : Rule Part
  | basic : Rule Part
  | sized : Rule Part
  | classOrEnum : Rule Part
  | function : Rule Part
  | noexcept : Rule (Option Expr)
  /-- The types of the result and the parameters. -/
  | signature : Rule (List Part)
  | array : Rule Part
  | vector : Rule Part
  | memberPointer : Rule Part
  | templateTemplate : Rule Part
  | typeOfExpr : Rule Part
  | args : Rule (List Arg)
  | arg : Rule Arg
  | expr : Rule Expr
  /-- A literal, or a symbol. -/
  | primary : Rule Expr
  | unresolved : Rule Expr
  | unresolvedType : Rule Part
  /-- A step of the scope of an unresolved name. -/
  | level : Rule Part
  /-- A name with template arguments, if it has any. -/
  | simple : Rule Part
  /-- An unresolved name in a scope. -/
  | base (isGlobal : Bool) (scopes : List Part) : Rule Expr
  | destructor : Rule Part
  | initializer : Rule (List Expr)
  | memberName : Rule Name
  | subobject : Rule Expr

/-- What the rules read one level down. -/
abbrev Below := {α : Type} → Rule α → Scan α

end ArcCoverage.Symbol.Encoding
