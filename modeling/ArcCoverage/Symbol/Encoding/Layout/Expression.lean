/-
# Expressions

Operands stand in parentheses, but for parameters of functions and for symbols. A comparison by `>`
has parentheses around it, so that it ends no template arguments.
-/
import ArcCoverage.Symbol.Encoding.Layout.Declaration

namespace ArcCoverage.Symbol.Encoding.Write

/-- An operand. -/
def operand (writer : Writer) (scope : Scope) : Expr → Write Unit
  | .functionParameter number => writer scope (.expr (.functionParameter number))
  | .external whole => writer scope (.whole whole)
  | e => do
    put "("
    writer scope (.expr e)
    put ")"

/-- Expressions with commas between them. -/
def exprs (writer : Writer) (scope : Scope) (es : List Expr) : Write Unit :=
  commas (fun e => writer scope (.expr e)) es

/-- An operator between its operands. -/
def binary (writer : Writer) (scope : Scope) (operator : OperatorName) (left right : Expr) :
    Write Unit := do
  operand writer scope left
  operatorName writer scope operator
  operand writer scope right

/-- Whether an operator is that of some letters. -/
def isOperator (letters : String) : OperatorName → Bool
  | .symbol operator => operator.letters == letters
  | _ => false

/-- The value of a literal, with its sign. -/
def value (negative positive : String) : List Char → Write Unit
  | 'n' :: digits => put (negative ++ String.ofList digits)
  | digits => put (positive ++ String.ofList digits)

/-- A literal of a type. -/
def literal (writer : Writer) (scope : Scope) (type : Part) (digits : List Char) : Write Unit := do
  let typed := do
    put "("
    writer scope (.part type)
    put ")"
  match type with
  | .basic basic =>
    if basic.is "b" && digits = ['0'] then put "false"
    else if basic.is "b" && digits = ['1'] then put "true"
    else if basic.is "Dn" then put "nullptr"
    else if basic.is "i" then value "-" "" digits
    else
      typed
      if basic.is "f" || basic.is "d" then
        value "-[" "[" digits
        put "]"
      else value "-" "" digits
  | _ =>
    typed
    value "-" "" digits

/-- The scope of a name that is not resolved. -/
def unresolvedScope (writer : Writer) (scope : Scope) (isGlobal : Bool) (scopes : List Part) :
    Write Unit := do
  if isGlobal then put "::"
  scopes.forM fun part => do
    writer scope (.part part)
    put "::"

/-- A word with a piece in parentheses behind it. -/
def question (word : String) (piece : Write Unit) : Write Unit := do
  put (word ++ " (")
  piece
  put ")"

/-- **An expression.** -/
def expr (writer : Writer) (scope : Scope) : Expr → Write Unit
  | .number n => put (toString n)
  | .unary operator e => do
    operatorName writer scope operator
    operand writer scope e
  | .binary operator left right =>
    if isOperator "gt" operator then do
      put "("
      binary writer scope operator left right
      put ")"
    else binary writer scope operator left right
  | .ternary operator first second third =>
    if isOperator "qu" operator then do
      operand writer scope first
      put "?"
      operand writer scope second
      put " : "
      operand writer scope third
    else do
      operatorName writer scope operator
      put "("
      commas (operand writer scope) [first, second, third]
      put ")"
  | .step mark e => do
    put mark
    writer scope (.expr e)
  | .call function list => do
    put "("
    writer scope (.expr function)
    put ")("
    exprs writer scope list
    put ")"
  | .convert type e => do
    put "("
    writer scope (.part type)
    put ")("
    writer scope (.expr e)
    put ")"
  | .construct type list => do
    writer scope (.part type)
    put "("
    exprs writer scope list
    put ")"
  | .braced type list => do
    writer scope (.part type)
    put "\x7b"
    exprs writer scope list
    put "\x7d"
  | .list e => do
    put "\x7b"
    writer scope (.expr e)
    put "\x7d"
  | .cast word type e => do
    put (word ++ "<")
    writer scope (.part type)
    put ">("
    writer scope (.expr e)
    put ")"
  | .ofType word type => question word (writer scope (.part type))
  | .ofExpr word e => question word (writer scope (.expr e))
  | .allocate word place type init => do
    put (word ++ " (")
    exprs writer scope place
    put ") "
    writer scope (.part type)
    init.toList.forM fun list => do
      put "("
      exprs writer scope list
      put ")"
  | .release word e => do
    put word
    writer scope (.expr e)
  | .subobject type whole offset => do
    writer scope (.expr whole)
    put ".<"
    writer scope (.part type)
    put (" at offset " ++ toString offset ++ ">")
  | .member arrow object name => do
    operand writer scope object
    put arrow
    writer scope (.name name)
  | .memberPointer object pointer => do
    operand writer scope object
    put ".*"
    operand writer scope pointer
  | .packSize pack => do
    put "sizeof...("
    writer scope (.expr pack)
    put ")"
  | .argsSize list => do
    put "sizeof...("
    commas (fun a => writer scope (.arg a)) list
    put ")"
  | .expansion pattern => do
    operand writer scope pattern
    put "..."
  | .throw none => put "throw"
  | .throw (some e) => do
    put "throw "
    writer scope (.expr e)
  | .parameter index => parameter writer scope index
  | .functionParameter none => put "this"
  | .functionParameter (some n) => put ("\x7bparm#" ++ toString (n + 1) ++ "\x7d")
  | .unresolved isGlobal scopes isDestructor part => do
    unresolvedScope writer scope isGlobal scopes
    if isDestructor then put "~"
    writer scope (.part part)
  | .unresolvedOperator isGlobal scopes operator list => do
    unresolvedScope writer scope isGlobal scopes
    operatorName writer scope operator
    list.toList.forM fun list => writer scope (.args list)
  | .literal type digits => literal writer scope type digits
  | .external whole => writer scope (.whole whole)

end ArcCoverage.Symbol.Encoding.Write
