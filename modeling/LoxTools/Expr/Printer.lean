import LoxTools.Expr.Basic
import LoxTools.Number.Shortest

/-!
# Printing expressions

An expression is printed in parenthesised operator-first notation, so that
`-123 * (45.67)` becomes `(* (- 123) (group 45.67))`. How a number literal looks is a
parameter of the printer: what the notation says about trees does not depend on it.
-/

namespace LoxTools.Expr

/-- **Operator-first notation**, over a rendering of the number literals. -/
def renderWith (number : Binary64 → String) : Expr → String
  | .number value => number value
  | .string text => text
  | .bool true => "true"
  | .bool false => "false"
  | .nil => "nil"
  | .group inner => "(group " ++ renderWith number inner ++ ")"
  | .unary op operand => "(" ++ op.spelling ++ " " ++ renderWith number operand ++ ")"
  | .binary left op right =>
    "(" ++ op.spelling ++ " " ++ renderWith number left ++ " " ++ renderWith number right ++ ")"

/-- Operator-first notation with shortest decimals. -/
def render (expr : Expr) : String :=
  expr.renderWith Binary64.render

end LoxTools.Expr
