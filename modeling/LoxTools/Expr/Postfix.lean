import LoxTools.Expr.Basic

/-!
# Postfix programs

An expression can be built by a list of instructions on a stack of expressions, the last
pushed on top. An instruction that cannot be carried out leaves the stack as it is and says
why; an unknown operator is noticed before a missing operand.
-/

namespace LoxTools

/-- One instruction of a postfix program. -/
inductive Instruction where
  /-- push an expression -/
  | push (leaf : Expr)
  /-- push the top once more -/
  | duplicate
  /-- put parentheses around the top -/
  | group
  /-- apply the one-place operator that a token means -/
  | unary (kind : TokenKind)
  /-- apply the two-place operator that a token means; the right operand is on top -/
  | binary (kind : TokenKind)
  /-- compare the top two expressions -/
  | compare
  deriving DecidableEq, Repr

/-- What an instruction has to say besides changing the stack. -/
inductive Note where
  /-- the token means no operator of this kind -/
  | notAnOperator
  /-- too few expressions on the stack -/
  | stackEmpty
  /-- the answer of a comparison -/
  | compared (equal : Bool)
  deriving DecidableEq, Repr

/-- **One step** of a postfix program: the stack afterwards, and a note if there is one. -/
def Instruction.run : Instruction → List Expr → List Expr × Option Note
  | push leaf, stack => (leaf :: stack, none)
  | duplicate, e :: stack => (e :: e :: stack, none)
  | duplicate, [] => ([], some .stackEmpty)
  | group, e :: stack => (.group e :: stack, none)
  | group, [] => ([], some .stackEmpty)
  | unary kind, stack =>
    match UnaryOp.ofTokenKind? kind, stack with
    | none, _ => (stack, some .notAnOperator)
    | some op, e :: below => (.unary op e :: below, none)
    | some _, [] => (stack, some .stackEmpty)
  | binary kind, stack =>
    match BinaryOp.ofTokenKind? kind, stack with
    | none, _ => (stack, some .notAnOperator)
    | some op, right :: left :: below => (.binary left op right :: below, none)
    | some _, _ => (stack, some .stackEmpty)
  | compare, stack =>
    match stack with
    | right :: left :: _ => (stack, some (.compared (left.equals right)))
    | _ => (stack, some .stackEmpty)

end LoxTools
