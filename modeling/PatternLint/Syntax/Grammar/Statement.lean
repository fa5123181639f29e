import PatternLint.Syntax.Grammar.Expr

/-!
This module contains the grammar of statements and of the sequences of them in blocks.
-/

namespace PatternLint.Syntax

structure Statement (n : Nat) where
  tree : Tree n
  needsSemicolon : Bool

namespace Grammar

open Syntax.Parser

variable {n : Nat} (g : Nested n)

def letStatement : Parser n (Tree n) := do
  keyword "let"
  let pattern ← g.pattern
  let type ← afterPunct? ":" (g.type true)
  let front := pattern.tree :: (type.map TypeTree.tree).toList
  let mut value := []
  if ← punct? "=" then
    let (e, braced) ← endsInBraces (g.expr true)
    value := [e.tree]
    if !braced then
      value := value ++ ((← afterKeyword? "else" (block g)).getD [])
  punct ";"
  return .ofChildren (front ++ value)

inductive AfterPath where
  | definition
  | statement (path : List Name)
  | neither

def afterPath : Parser n AfterPath := do
  let input ← get
  match plainPath g input with
  | .error _ => return .neither
  | .ok (path, rest) =>
    let trees := rest.trees
    if !Peek.punct "!" trees then
      return .neither
    else if Peek.second (Peek.any [Peek.ident, Peek.keyword "try"]) trees then
      return .definition
    else if Peek.second (Peek.group .brace) trees && !Peek.third isContinued trees then
      set rest
      return .statement path
    else
      return .neither
where
  isContinued : Peek := fun trees =>
    Peek.punct "." trees && !Peek.punct ".." trees || Peek.punct "?" trees

def startsItem : Peek := fun trees =>
  oneOf ["pub", "extern", "use", "fn", "mod", "type", "struct", "enum", "trait", "impl",
      "macro"] trees ||
    Peek.keyword "crate" trees && !Peek.second (Peek.punct "::") trees ||
    Peek.keyword "static" trees && startsStatic trees ||
    Peek.keyword "const" trees && !startsConstExpr trees ||
    Peek.keyword "unsafe" trees && !Peek.second (Peek.group .brace) trees ||
    Peek.keyword "async" trees && Peek.second (oneOf ["unsafe", "extern", "fn"]) trees ||
    Peek.keyword "union" trees && Peek.second Peek.ident trees ||
    Peek.keyword "auto" trees && Peek.second (Peek.keyword "trait") trees ||
    Peek.keyword "default" trees && Peek.second (oneOf ["unsafe", "impl"]) trees
where
  startsStatic : Peek := fun trees =>
    Peek.second (Peek.keyword "mut") trees || Peek.second Peek.ident trees
  startsConstExpr : Peek := fun trees =>
    Peek.second (Peek.any [Peek.group .brace, oneOf ["static", "move"], Peek.punct "|"]) trees ||
      Peek.second (Peek.keyword "async") trees &&
        !Peek.third (oneOf ["unsafe", "extern", "fn"]) trees

def exprStatement (attributes : List (Tree n)) : Parser n (Statement n) := do
  let e ← g.leadingExpr
  let ended ← punct? ";"
  let needsSemicolon := match e.form with
    | .blockLike => false
    | .macroCall braced => !braced && !ended
    | _ => !ended
  return ⟨(e.withAttributes attributes).tree, needsSemicolon⟩

def itemStatement (attributes : List (Tree n)) : Parser n (Statement n) := do
  match ← g.item with
  | some tree => return ⟨tree.withAttributes attributes, false⟩
  | none => return ⟨.ofChildren [], false⟩

def statement : Parser n (Statement n) := do
  let attributes ← outerAttributes g
  match ← afterPath g with
  | .statement path =>
    punct "!"
    let (tree, _) ← macroBody path
    let _ ← punct? ";"
    return ⟨tree.withAttributes attributes, false⟩
  | .definition => itemStatement g attributes
  | .neither =>
    let trees ← ahead
    if Peek.keyword "let" trees then
      return ⟨(← letStatement g).withAttributes attributes, false⟩
    else if startsItem trees then
      itemStatement g attributes
    else
      exprStatement g attributes

def statements : Parser n (List (Tree n)) :=
  loop g.steps step []
where
  step (acc : List (Tree n)) : Parser n (Step (List (Tree n)) (List (Tree n))) := do
    let _ ← whileSeen g (Peek.punct ";") (punct ";")
    if ← isEmpty then
      return .done acc.reverse
    let statement ← statement g
    let acc := statement.tree :: acc
    if ← isEmpty then
      return .done acc.reverse
    if statement.needsSemicolon then
      failRule "unexpected token, expected `;`"
    return .next acc

end Grammar

end PatternLint.Syntax
