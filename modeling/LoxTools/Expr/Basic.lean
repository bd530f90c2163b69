import LoxTools.Number.Binary64
import LoxTools.Token.Kind

/-!
# Expressions

Expression trees: literals, groups, and applications of one-place and two-place operators.
Which token kinds spell an operator depends on the place it stands in; the minus sign is in
both tables.
-/

namespace LoxTools

/-- Operators in front of one operand. -/
inductive UnaryOp where
  | negate | not
  deriving DecidableEq, Repr

/-- Operators between two operands. -/
inductive BinaryOp where
  | equal | notEqual | less | lessEqual | greater | greaterEqual
  | add | subtract | multiply | divide
  deriving DecidableEq, Repr

/-- The source spelling. -/
def UnaryOp.spelling : UnaryOp → String
  | .negate => "-"
  | .not => "!"

/-- The source spelling. -/
def BinaryOp.spelling : BinaryOp → String
  | .equal => "=="
  | .notEqual => "!="
  | .less => "<"
  | .lessEqual => "<="
  | .greater => ">"
  | .greaterEqual => ">="
  | .add => "+"
  | .subtract => "-"
  | .multiply => "*"
  | .divide => "/"

/-- The operator that a token means in front of an operand. -/
def UnaryOp.ofTokenKind? : TokenKind → Option UnaryOp
  | .minus => some .negate
  | .bang => some .not
  | _ => none

/-- The operator that a token means between two operands. -/
def BinaryOp.ofTokenKind? : TokenKind → Option BinaryOp
  | .equalEqual => some .equal
  | .bangEqual => some .notEqual
  | .less => some .less
  | .lessEqual => some .lessEqual
  | .greater => some .greater
  | .greaterEqual => some .greaterEqual
  | .plus => some .add
  | .minus => some .subtract
  | .star => some .multiply
  | .slash => some .divide
  | _ => none

/-- An expression tree. -/
inductive Expr where
  /-- a number literal -/
  | number (value : Binary64)
  /-- a string literal -/
  | string (text : String)
  /-- a truth value -/
  | bool (value : Bool)
  /-- the absent value -/
  | nil
  /-- an expression in parentheses -/
  | group (inner : Expr)
  /-- an operator in front of its operand -/
  | unary (op : UnaryOp) (operand : Expr)
  /-- an operator between its operands -/
  | binary (left : Expr) (op : BinaryOp) (right : Expr)
  deriving DecidableEq, Repr

namespace Expr

/-- Whether the expression is a literal. -/
def isLiteral : Expr → Bool
  | number _ | string _ | bool _ | nil => true
  | _ => false

/-- **Equality of expressions**: the same tree, where number literals are compared as
numbers. A tree with a not-a-number literal is not equal to itself. -/
def equals : Expr → Expr → Bool
  | number x, number y => x.equals y
  | string s, string t => s == t
  | bool a, bool b => a == b
  | nil, nil => true
  | group a, group b => a.equals b
  | unary op a, unary op' b => op == op' && a.equals b
  | binary a op b, binary a' op' b' => a.equals a' && op == op' && b.equals b'
  | _, _ => false

end Expr

end LoxTools
