import PatternLint.Syntax.Grammar.Pattern

/-!
This module contains the grammar of the operators between operands: how tightly each binds, and
where a range ends.
-/

namespace PatternLint.Syntax.Grammar

open Syntax.Parser

variable {n : Nat} (g : Nested n)

def binaryOperators : List (String × Precedence) :=
  [("+=", .assign), ("-=", .assign), ("*=", .assign), ("/=", .assign), ("%=", .assign),
    ("^=", .assign), ("&=", .assign), ("|=", .assign), ("<<=", .assign), (">>=", .assign),
    ("&&", .and), ("||", .or), ("<<", .shift), (">>", .shift), ("==", .compare), ("<=", .compare),
    ("!=", .compare), (">=", .compare), ("+", .sum), ("-", .sum), ("*", .product),
    ("/", .product), ("%", .product), ("^", .bitXor), ("&", .bitAnd), ("|", .bitOr),
    ("<", .compare), (">", .compare)]

def binaryOperator? (trees : List TokenTree) : Option (String × Precedence) :=
  match trees with
  | .punct .. :: _ => binaryOperators.find? fun (text, _) => Peek.punct text trees
  | _ => none

def startsAssignment : Peek := fun trees =>
  Peek.punct "=" trees && !Peek.punct "=>" trees

def nextPrecedence (trees : List TokenTree) : Precedence :=
  match binaryOperator? trees with
  | some (_, precedence) => precedence
  | none =>
    if startsAssignment trees then .assign
    else if Peek.punct ".." trees then .range
    else if Peek.keyword "as" trees then .cast
    else .lowest

def rightOperand (precedence : Precedence) (allowStruct : Bool) : Parser n (Expr n) := do
  loop g.steps step (← g.operand allowStruct)
where
  step (right : Expr n) : Parser n (Step (Expr n) (Expr n)) := do
    let trees ← ahead
    let next := nextPrecedence trees
    -- assignments group to the right
    if precedence.rank < next.rank || next = precedence ∧ precedence = .assign then
      let right ← g.operators right next allowStruct
      if (← ahead).length == trees.length then
        return .done right
      else
        return .next right
    else
      return .done right

def endsOpenRange (allowStruct : Bool) : Peek := fun trees =>
  trees.isEmpty || Peek.punct "," trees || Peek.punct ";" trees ||
    Peek.punct "." trees && !Peek.punct ".." trees || Peek.punct "?" trees ||
    Peek.punct "=>" trees || !allowStruct && Peek.group .brace trees ||
    Peek.keyword "as" trees ||
    ["=", "+", "/", "%", "^", ">", "<=", "!=", "-=", "*=", "&=", "|=", "<<="].any fun text =>
      Peek.punct text trees

def rangeEnd? (dots : Dots) (allowStruct : Bool) : Parser n (List (Tree n)) := do
  if !dots.closed && (← peek (endsOpenRange allowStruct)) then
    return []
  else
    return [(← rightOperand g .range allowStruct).tree]

def prefixRange (allowStruct : Bool) : Parser n (Expr n) := do
  let dots ← rangeDots
  return ⟨.ofChildren (← rangeEnd? g dots allowStruct), .range (some dots.location)⟩

def castFollower? (trees : List TokenTree) : Option String :=
  if Peek.punct "." trees && !Peek.punct ".." trees then
    if Peek.second (Peek.keyword "await") trees then
      some "`.await`"
    else if Peek.second Peek.ident trees &&
        Peek.third (Peek.any [Peek.group .parenthesis, Peek.punct "::"]) trees then
      some "a method call"
    else
      some "a field access"
  else if Peek.punct "?" trees then
    some "`?`"
  else if Peek.group .bracket trees then
    some "indexing"
  else if Peek.group .parenthesis trees then
    some "a function call"
  else
    none

def castTo (left : Expr n) : Parser n (Expr n) := do
  keyword "as"
  let type ← g.type false
  match castFollower? (← ahead) with
  | some follower => failRule s!"casts cannot be followed by {follower}"
  | none => return .ofTrees [left.tree, type.tree]

def operators (left : Expr n) (base : Precedence) (allowStruct : Bool) : Parser n (Expr n) :=
  loop g.steps step left
where
  step (left : Expr n) : Parser n (Step (Expr n) (Expr n)) := do
    let trees ← ahead
    let admits (p : Precedence) : Bool := base.rank ≤ p.rank
    match left.form, binaryOperator? trees with
    | .range _, _ => return .done left
    | form, some (text, precedence) =>
      if !admits precedence then
        return .done left
      if precedence = .compare ∧ form = .comparison then
        failRule "comparison operators cannot be chained"
      skip text.length
      let right ← rightOperand g precedence allowStruct
      let form := if precedence = .compare then Expr.Form.comparison else .plain
      return .next ⟨.ofChildren [left.tree, right.tree], form⟩
    | _, none =>
      if admits .assign && startsAssignment trees then
        skip 1
        let right ← rightOperand g .assign allowStruct
        return .next (.ofTrees [left.tree, right.tree])
      else if admits .range && Peek.punct ".." trees then
        let dots ← rangeDots
        let last ← rangeEnd? g dots allowStruct
        return .next ⟨.ofChildren (left.tree :: last), .range none⟩
      else if admits .cast && Peek.keyword "as" trees then
        return .next (← castTo g left)
      else
        return .done left

end PatternLint.Syntax.Grammar
