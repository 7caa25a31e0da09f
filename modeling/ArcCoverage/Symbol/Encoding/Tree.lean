/-
# What Itanium symbols encode

A symbol encodes a function, an object or something that a compiler adds to one. The pieces are of
these kinds:

| kind | for instance |
| --- | --- |
| `Part` | a type, or the beginning of a name: what later pieces may refer to |
| `Unqualified` | a name without the scope around it |
| `Name` | `a::b<int>`, or a name within a function |
| `Entity` | `a::b<int>(char)` |
| `Arg` | a template argument |
| `Expr` | an expression that a type depends on |
| `Whole` | an entity with the marks of its copies, or a bare type |

A reference to a part holds the part itself.
-/
import ArcCoverage.Symbol.Encoding.Vocabulary

namespace ArcCoverage.Symbol.Encoding

/-- How the address of an object changes on the way to a virtual function. -/
inductive CallOffset where
  | fixed (n : Int)
  | virtual (n entry : Int)
  deriving DecidableEq, Repr

/-- A copy that a compiler made of a function: what kind, and which. -/
structure Copy where
  label : String
  numbers : List Nat
  deriving DecidableEq, Repr

/-- What a compiler adds for a type. -/
inductive TypeRole where
  | virtualTable
  | tableOfTables
  | information
  | informationName
  | informationFunction
  deriving DecidableEq, Repr

/-- What a compiler adds for an object. -/
inductive NameRole where
  | guard
  | threadInit
  | threadWrapper
  deriving DecidableEq, Repr

mutual

/-- A type, or the beginning of a name. -/
inductive Part where
  | wellKnown (name : WellKnown)
  | basic (type : BasicType)
  | vendor (name : String)
  /-- A type with a number in its name. -/
  | sized (before : String) (size : Expr) (behind : String)
  | named (key : String) (name : Name)
  /-- The first of the types is that of the result. -/
  | function (qualifiers : Qualifiers) (isNoexcept : Bool) (condition : Option Expr)
      (types : List Part) (object : Option ObjectKind)
  | array (size : Option Expr) (element : Part)
  | vector (size : Expr) (element : Part)
  | member (scope target : Part)
  | parameter (index : Nat)
  | applied (template : Part) (args : List Arg)
  | ofExpr (e : Expr)
  | qualified (qualifiers : Qualifiers) (type : Part)
  | pointer (type : Part)
  | lvalueRef (type : Part)
  | rvalueRef (type : Part)
  | complex (type : Part)
  | imaginary (type : Part)
  | vendorQualified (name : String) (args : Option (List Arg)) (type : Part)
  | expansion (type : Part)
  | plain (name : Unqualified)
  | inStd (name : Unqualified)
  | nested (outer : Part) (name : Unqualified)
  | withArgs (template : Part) (args : List Arg)
  | dataMember (outer : Part) (name : String)

/-- The name of an operator. -/
inductive OperatorName where
  | symbol (operator : Operator)
  | conversion (type : Part)
  | literal (name : String)
  | vendor (operands : Nat) (name : String)

/-- A name without the scope around it, and its tags. -/
inductive Unqualified where
  | operator (name : OperatorName) (tags : List String)
  | constructor (inherited : Option Part) (tags : List String)
  | destructor (tags : List String)
  | source (name : String) (tags : List String)
  | closure (parameters : List Part) (number : Option Nat) (tags : List String)
  | unnamed (number : Option Nat) (tags : List String)

/-- A name. -/
inductive Name where
  | plain (part : Part)
  | template (part : Part) (args : List Arg)
  | nested (qualifiers : Qualifiers) (object : Option ObjectKind) (part : Part)
  | within (outer : Entity) (name : Name)
  | textWithin (outer : Entity)
  | withinDefault (outer : Entity) (name : Name)

/-- A function, an object or what a compiler adds. -/
inductive Entity where
  | function (name : Name) (types : List Part)
  | data (name : Name)
  | ofType (role : TypeRole) (type : Part)
  | ofName (role : NameRole) (name : Name)
  | thunk (offsets : List CallOffset) (target : Entity)
  | constructionTable (whole base : Part)
  | temporary (name : Name) (number : Nat)
  | transaction (isSafe : Bool) (target : Entity)
  | resource (text : String)

/-- All that a text encodes. -/
inductive Whole where
  | encoded (entity : Entity) (copies : List Copy)
  | block (entity : Entity)
  | type (type : Part)
  | startup (whole : Whole)
  | shutdown (whole : Whole)

/-- A template argument. -/
inductive Arg where
  | type (type : Part)
  | expr (e : Expr)
  | pack (args : List Arg)

/-- An expression. -/
inductive Expr where
  | number (n : Nat)
  | unary (operator : OperatorName) (operand : Expr)
  | binary (operator : OperatorName) (left right : Expr)
  | ternary (operator : OperatorName) (first second third : Expr)
  | step (mark : String) (operand : Expr)
  | call (function : Expr) (args : List Expr)
  | convert (type : Part) (operand : Expr)
  | construct (type : Part) (args : List Expr)
  | braced (type : Part) (args : List Expr)
  | list (element : Expr)
  | cast (word : String) (type : Part) (operand : Expr)
  | ofType (word : String) (type : Part)
  | ofExpr (word : String) (operand : Expr)
  | allocate (word : String) (place : List Expr) (type : Part) (init : Option (List Expr))
  | release (word : String) (operand : Expr)
  | subobject (type : Part) (whole : Expr) (offset : Int)
  | member (arrow : String) (object : Expr) (name : Name)
  | memberPointer (object pointer : Expr)
  | packSize (pack : Expr)
  | argsSize (args : List Arg)
  | expansion (pattern : Expr)
  | throw (operand : Option Expr)
  | parameter (index : Nat)
  /-- A parameter of the function by its number, or its object. -/
  | functionParameter (number : Option Nat)
  | unresolved (isGlobal : Bool) (scopes : List Part) (isDestructor : Bool) (name : Part)
  | unresolvedOperator (isGlobal : Bool) (scopes : List Part) (operator : OperatorName)
      (args : Option (List Arg))
  | literal (type : Part) (value : List Char)
  | external (whole : Whole)

end

/-- How many operands an operator takes in an expression. -/
def OperatorName.operands : OperatorName → Nat
  | .symbol o => o.operands
  | .conversion _ | .literal _ => 1
  | .vendor n _ => n

/-- Whether an array is such a type. -/
def Part.isArray : Part → Bool
  | .array _ _ => true
  | _ => false

/-- Whether a part may end a nested name. -/
def Part.endsNested : Part → Bool
  | .nested _ _ | .withArgs _ _ => true
  | _ => false

/-- The template arguments at the end of a type, behind its pointers and references. -/
def Part.typeArgs : Part → Option (List Arg)
  | .applied _ args => some args
  | .vendorQualified _ args _ => args
  | .pointer type | .lvalueRef type | .rvalueRef type => type.typeArgs
  | _ => none

/-- Whether a name is one of a constructor, a destructor or a conversion. -/
def Unqualified.hasNoResult : Unqualified → Bool
  | .constructor _ _ | .destructor _ | .operator (.conversion _) _ => true
  | _ => false

/-- Whether a part is the name of a constructor, a destructor or a conversion, with its arguments. -/
def Part.hasNoResult : Part → Bool
  | .plain name | .inStd name | .nested _ name => name.hasNoResult
  | .withArgs template _ => template.hasNoResult
  | _ => false

/-- Whether a function of a name has no result that is encoded. -/
def Name.hasNoResult : Name → Bool
  | .plain part | .nested _ _ part => part.hasNoResult
  | _ => false

/-- The template arguments at the end of a name. -/
def Name.args : Name → Option (List Arg)
  | .template _ args => some args
  | .nested _ _ (.withArgs _ args) => some args
  | .within _ name | .withinDefault _ name => name.args
  | _ => none

/-- What a constructor is called after. -/
inductive ClassName where
  | word (text : String)
  | source (name : String)
  | closure (parameters : List Part) (number : Option Nat)
  | unnamed (number : Option Nat)

/-- A name as one of a class. -/
def Unqualified.className? : Unqualified → Option ClassName
  | .source name _ => some (.source name)
  | .closure parameters number _ => some (.closure parameters number)
  | .unnamed number _ => some (.unnamed number)
  | _ => none

mutual

/-- The name of the class that a part is, or is in. -/
def Part.className? : Part → Option ClassName
  | .wellKnown name => name.className?.map .word
  | .plain name | .inStd name => name.className?
  | .nested outer name => name.className?.or outer.className?
  | .withArgs template _ => template.className?
  | .dataMember _ name => some (.source name)
  | .named _ name => name.className?
  | _ => none

/-- The name of the class that a name is of, or is in. -/
def Name.className? : Name → Option ClassName
  | .plain part | .template part _ | .nested _ _ part => part.className?
  | .within _ name | .withinDefault _ name => name.className?
  | .textWithin _ => none

end

end ArcCoverage.Symbol.Encoding
