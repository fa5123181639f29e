import PatternLint.Syntax.Grammar.Item

/-!
This module ties the rules of the grammar together: each one calls the others one level of nesting
further down.
-/

namespace PatternLint.Syntax.Grammar

open Syntax.Parser

variable {n : Nat}

def Nested.exhausted (steps : Nat) : Nested n where
  steps := steps
  expr _ := failTooDeep
  operand _ := failTooDeep
  operators _ _ _ := failTooDeep
  type _ := failTooDeep
  typeBound _ := failTooDeep
  pattern := failTooDeep
  leadingExpr := failTooDeep
  statements := failTooDeep
  item := failTooDeep

def Nested.ofDepth (steps : Nat) : (depth : Nat) → Nested n
  | 0 => exhausted steps
  | depth + 1 =>
    {
      steps := steps
      expr := fun allowStruct => Grammar.expr (ofDepth steps depth) allowStruct
      operand := fun allowStruct => Grammar.operand (ofDepth steps depth) allowStruct
      operators := fun left base allowStruct =>
        Grammar.operators (ofDepth steps depth) left base allowStruct
      type := fun allowPlus => Grammar.type (ofDepth steps depth) allowPlus
      typeBound := fun allowed => Grammar.typeBound (ofDepth steps depth) allowed
      pattern := fun input => Grammar.pattern (ofDepth steps depth) input
      leadingExpr := fun input => Grammar.leadingExpr (ofDepth steps depth) input
      statements := fun input => Grammar.statements (ofDepth steps depth) input
      item := fun input => Grammar.item (ofDepth steps depth) input
    }

/--
The rules for a list of tokens. Each rule that is tied to the others takes a token before it comes
back to itself, and there are nine of them.
-/
def Nested.ofTokens (trees : List TokenTree) : Nested n :=
  let count := TokenTree.listSize trees + 1
  ofDepth (count + 1) (10 * count)

end PatternLint.Syntax.Grammar
