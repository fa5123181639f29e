import PatternLint.Syntax.Grammar.Operator

/-!
This module contains the grammar of operands: what an expression is made of, with the suffixes
after it and the operators in front of it.
-/

namespace PatternLint.Syntax.Grammar

open Syntax.Parser

variable {n : Nat} (g : Nested n)

def startsExpr : Peek := fun trees =>
  Peek.word trees && !Peek.keyword "as" trees || Peek.literal trees ||
    Peek.any [Peek.group .parenthesis, Peek.group .bracket, Peek.group .brace] trees ||
    Peek.punct "!" trees && !Peek.punct "!=" trees ||
    Peek.punct "-" trees && !Peek.punct "-=" trees && !Peek.punct "->" trees ||
    Peek.punct "*" trees && !Peek.punct "*=" trees ||
    Peek.punct "|" trees && !Peek.punct "|=" trees ||
    Peek.punct "&" trees && !Peek.punct "&=" trees ||
    Peek.punct "<" trees && !Peek.punct "<=" trees && !Peek.punct "<<=" trees ||
    Peek.any [Peek.punct "..", Peek.punct "::", Peek.lifetime, Peek.punct "#"] trees

def exprs : Parser n (List (Tree n)) := do
  return (← commaSeparated g (g.expr true)).map Expr.tree

/-! ### Blocks and what ends with them -/

def ifExpr : Parser n (Tree n) := do
  return .ofChildren (← loop g.steps step [])
where
  step (acc : List (Tree n)) : Parser n (Step (List (Tree n)) (List (Tree n))) := do
    keyword "if"
    let condition ← g.expr false
    let acc := acc ++ condition.tree :: (← block g)
    if ← keyword? "else" then
      if ← peek (Peek.keyword "if") then
        return .next acc
      else if ← peek (Peek.group .brace) then
        return .done (acc ++ (← block g))
      else
        failExpected [quote "if", "curly braces"]
    else
      return .done acc

def whileExpr : Parser n (Tree n) := do
  keyword "while"
  let condition ← g.expr false
  return .ofChildren (condition.tree :: (← blockWithAttributes g))

def forExpr : Parser n (Tree n) := do
  keyword "for"
  let pattern ← alternatives g
  keyword "in"
  let iterated ← g.expr false
  return .ofChildren (pattern.tree :: iterated.tree :: (← blockWithAttributes g))

def loopExpr : Parser n (Tree n) := do
  keyword "loop"
  return .ofChildren (← blockWithAttributes g)

def arm : Parser n (List (Tree n)) := do
  let attributes ← outerAttributes g
  let pattern ← alternatives g
  let guard ← afterKeyword? "if" (g.expr true)
  punct "=>"
  let body ← g.leadingExpr
  -- a body that ends with its block needs no comma
  if body.form = .blockLike ∨ (← isEmpty) then
    let _ ← punct? ","
  else
    punct ","
  return attributes ++ pattern.tree :: (guard.map Expr.tree).toList ++ [body.tree]

def matchExpr : Parser n (Tree n) := do
  keyword "match"
  let scrutinee ← g.expr false
  let arms ← delimited .brace do
    let attributes ← innerAttributes g
    return attributes ++ (← whileSeen g (Peek.not List.isEmpty) (arm g)).flatten
  return .ofChildren (scrutinee.tree :: arms)

def unsafeExpr : Parser n (Tree n) := do
  let start ← location
  keyword "unsafe"
  return .node (.unsafeBlock start) (← blockWithAttributes g)

def tryExpr : Parser n (Tree n) := do
  keyword "try"
  return .ofChildren (← block g)

def labeledExpr : Parser n (Tree n) := do
  lifetime
  punct ":"
  let trees ← ahead
  if Peek.keyword "while" trees then
    whileExpr g
  else if Peek.keyword "for" trees then
    forExpr g
  else if Peek.keyword "loop" trees then
    loopExpr g
  else if Peek.group .brace trees then
    return .ofChildren (← blockWithAttributes g)
  else
    failRule "expected loop or block expression"

def startsForClosure : Peek :=
  Peek.and (Peek.keyword "for") (Peek.second startsGenerics)

def blockLikeRule? (trees : List TokenTree) : Option (Parser n (Tree n)) :=
  if Peek.keyword "if" trees then
    some (ifExpr g)
  else if Peek.keyword "while" trees then
    some (whileExpr g)
  else if Peek.keyword "for" trees && !startsForClosure trees then
    some (forExpr g)
  else if Peek.keyword "loop" trees then
    some (loopExpr g)
  else if Peek.keyword "match" trees then
    some (matchExpr g)
  else if Peek.and (Peek.keyword "try") (Peek.second (Peek.group .brace)) trees then
    some (tryExpr g)
  else if Peek.keyword "unsafe" trees then
    some (unsafeExpr g)
  else if Peek.and (Peek.keyword "const") (Peek.second (Peek.group .brace)) trees then
    some (.ofChildren <$> constBlock g)
  else if Peek.group .brace trees then
    some (.ofChildren <$> blockWithAttributes g)
  else if Peek.lifetime trees then
    some (labeledExpr g)
  else
    none

/-! ### Other operands -/

def asyncExpr : Parser n (Expr n) := do
  keyword "async"
  let _ ← keyword? "move"
  return .ofTrees (← block g)

def startsAsync : Peek := fun trees =>
  Peek.keyword "async" trees &&
    (Peek.second (Peek.group .brace) trees ||
      Peek.second (Peek.keyword "move") trees && Peek.third (Peek.group .brace) trees)

def startsClosure : Peek := fun trees =>
  Peek.punct "|" trees || oneOf ["move", "static"] trees || startsForClosure trees ||
    Peek.keyword "const" trees && !Peek.second (Peek.group .brace) trees ||
    Peek.keyword "async" trees &&
      Peek.second (Peek.any [Peek.punct "|", Peek.keyword "move"]) trees

def closureArgument : Parser n (List (Tree n)) := do
  let attributes ← outerAttributes g
  let pattern ← g.pattern
  let type ← afterPunct? ":" (g.type true)
  return attributes ++ pattern.tree :: (type.map TypeTree.tree).toList

def closureExpr (allowStruct : Bool) : Parser n (Expr n) := do
  let binder? ← binder? g
  for text in ["const", "static", "async", "move"] do
    let _ ← keyword? text
  punct "|"
  let inputs ← separatedUntil g "," (Peek.punct "|") (closureArgument g)
  punct "|"
  let front := binder?.getD [] ++ inputs.flatten
  match ← afterPunct? "->" (g.type true) with
  -- after an output type only a block may follow
  | some output => return .ofTrees (front ++ output.tree :: (← block g))
  | none => return .ofTrees (front ++ [(← g.expr allowStruct).tree])

def builtinExpr : Parser n (Expr n) := do
  skip 2
  let _ ← ident
  delimited .parenthesis anyTokens
  return ⟨.ofChildren [], .unread⟩

def fieldValue : Parser n (List (Tree n)) := do
  let attributes ← outerAttributes g
  let member ← member
  if member.isNone || (← peek (Peek.punct ":")) then
    punct ":"
    return attributes ++ [(← g.expr true).tree]
  else
    return attributes

def fieldValues : Parser n (List (Tree n)) :=
  loop g.steps step []
where
  step (acc : List (Tree n)) : Parser n (Step (List (Tree n)) (List (Tree n))) := do
    if ← isEmpty then
      return .done acc
    if ← punct? ".." then
      if ← isEmpty then
        return .done acc
      return .done (acc ++ [(← g.expr true).tree])
    let acc := acc ++ (← fieldValue g)
    if ← isEmpty then
      return .done acc
    punct ","
    return .next acc

def startsPathExpr : Peek := fun trees =>
  startsTypePath trees ||
    Peek.keyword "try" trees && Peek.second (Peek.any [Peek.punct "!", Peek.punct "::"]) trees

def pathExpr (allowStruct : Bool) : Parser n (Expr n) := do
  let path ← path g true
  let trees ← ahead
  if path.startsMacro trees then
    punct "!"
    let (tree, braced) ← macroBody path.segments
    return ⟨tree, .macroCall braced⟩
  else if allowStruct && Peek.group .brace trees then
    return .ofTrees (path.arguments ++ (← delimited .brace (fieldValues g)))
  else
    return ⟨path.toTree, .plain⟩

def bracketedExprs : Parser n (List (Tree n)) := do
  if ← isEmpty then
    return []
  let first ← g.expr true
  if ← isEmpty then
    return [first.tree]
  if ← punct? "," then
    return first.tree :: (← exprs g)
  if ← punct? ";" then
    return [first.tree, (← g.expr true).tree]
  failRule "expected `,` or `;`"

def breakExpr (allowStruct : Bool) : Parser n (Expr n) := do
  keyword "break"
  let start ← location
  if ← peek (Peek.and Peek.lifetime (Peek.second (Peek.punct ":"))) then
    -- the labelled value is read first, so that a failure inside it is the one that shows
    let _ ← g.expr true
    failAt start (.rule "parentheses required")
  let _ ← lifetime?
  let trees ← ahead
  if startsExpr trees && (allowStruct || !Peek.group .brace trees) then
    return .ofTrees [(← g.expr true).tree]
  else
    return .ofTrees []

def keywordExpr (text : String) : Parser n (Expr n) := do
  keyword text
  if ← peek startsExpr then
    return .ofTrees [(← g.expr true).tree]
  else
    return .ofTrees []

def letExpr (allowStruct : Bool) : Parser n (Expr n) := do
  keyword "let"
  let pattern ← alternatives g
  punct "="
  let first ← g.operand allowStruct
  let value ← g.operators first .compare allowStruct
  return .ofTrees [pattern.tree, value.tree]

def atom (allowStruct : Bool) : Parser n (Expr n) := do
  let trees ← ahead
  if Peek.literal trees then
    literal
    return .ofTrees []
  if startsAsync trees then
    return ← asyncExpr g
  if startsClosure trees then
    return ← closureExpr g allowStruct
  if Peek.and (Peek.keyword "builtin") (Peek.second (Peek.punct "#")) trees then
    return ← builtinExpr
  if let some rule := blockLikeRule? g trees then
    return ⟨← rule, .blockLike⟩
  if startsPathExpr trees then
    pathExpr g allowStruct
  else if Peek.group .parenthesis trees then
    return .ofTrees (← delimited .parenthesis (exprs g))
  else if Peek.keyword "break" trees then
    breakExpr g allowStruct
  else if Peek.keyword "continue" trees then
    skip 1
    let _ ← lifetime?
    return .ofTrees []
  else if Peek.keyword "return" trees then
    keywordExpr g "return"
  else if Peek.keyword "become" trees then
    skip 1
    let _ ← g.expr true
    return ⟨.ofChildren [], .unread⟩
  else if Peek.group .bracket trees then
    return .ofTrees (← delimited .bracket (bracketedExprs g))
  else if Peek.keyword "let" trees then
    letExpr g allowStruct
  else if Peek.keyword "yield" trees then
    keywordExpr g "yield"
  else if Peek.punct ".." trees then
    prefixRange g allowStruct
  else if Peek.keyword "_" trees then
    skip 1
    return .ofTrees []
  else
    failRule "expected an expression"

/-! ### Suffixes and prefix operators -/

def pairIndexFailure? (text : String) : Option String :=
  let parts := (text.splitOn ".").filter (!·.isEmpty)
  parts.findSome? fun part =>
    if part.any fun c => c == 'e' || c == 'E' then
      some "expected integer literal"
    else
      indexFailure? part

def memberAccess (e : Expr n) : Parser n (Expr n) := do
  if ← keyword? "await" then
    return .ofTrees [e.tree]
  match ← member with
  | none => return .ofTrees [e.tree]
  | some name =>
    let typeArguments ← afterPunct? "::" (genericArguments g)
    if typeArguments.isSome || (← peek (Peek.group .parenthesis)) then
      let args ← delimited .parenthesis (exprs g)
      let front := e.tree :: (typeArguments.map Prod.fst).getD []
      return ⟨.node (.methodCall name) (front ++ args), .plain⟩
    else
      return .ofTrees [e.tree]

def suffixAfterDot (e : Expr n) : Parser n (Expr n) := do
  match (← ahead) with
  -- a number with a point stands for two indices, and with the point at its end for one
  | .literal (.float text) l :: _ =>
    if let some failure := pairIndexFailure? text then
      failAt l (.rule failure)
    skip 1
    if text.endsWith "." then
      memberAccess g e
    else
      return .ofTrees [e.tree]
  | _ => memberAccess g e

def suffixes (e : Expr n) : Parser n (Expr n) :=
  loop g.steps step e
where
  step (e : Expr n) : Parser n (Step (Expr n) (Expr n)) := do
    let trees ← ahead
    let isRange := match e.form with
      | .range _ => true
      | _ => false
    if Peek.group .parenthesis trees then
      let args ← delimited .parenthesis (exprs g)
      return .next ⟨.node .call (e.tree :: args), .plain⟩
    else if Peek.group .bracket trees then
      let index ← delimited .bracket (g.expr true)
      return .next (.ofTrees [e.tree, index.tree])
    else if !isRange && Peek.punct "?" trees then
      skip 1
      return .next (.ofTrees [e.tree])
    else if !isRange && Peek.punct "." trees && !Peek.punct ".." trees then
      skip 1
      return .next (← suffixAfterDot g e)
    else
      return .done e

def borrowKind : Parser n Unit := do
  if ← peek (Peek.and (Peek.keyword "raw") (Peek.second (oneOf ["mut", "const"]))) then
    skip 2
  else
    let _ ← keyword? "mut"

def operand (allowStruct : Bool) : Parser n (Expr n) := do
  let attributes ← outerAttributes g
  let trees ← ahead
  if Peek.punct "&" trees then
    skip 1
    borrowKind
    return .ofTrees (attributes ++ [(← g.operand allowStruct).tree])
  else if Peek.any [Peek.punct "*", Peek.punct "!", Peek.punct "-"] trees then
    skip 1
    return .ofTrees (attributes ++ [(← g.operand allowStruct).tree])
  else
    let e ← suffixes g (← atom g allowStruct)
    match attributes, e.form with
    | _ :: _, .range (some dots) =>
      failAt dots
        (.rule "attributes are not allowed on range expressions starting with `..`")
    | _, _ => return e.withAttributes attributes

def expr (allowStruct : Bool) : Parser n (Expr n) := do
  let first ← g.operand allowStruct
  g.operators first .lowest allowStruct

def leadingExpr : Parser n (Expr n) := do
  let attributes ← outerAttributes g
  match blockLikeRule? g (← ahead) with
  | some rule =>
    let e : Expr n := ⟨← rule, .blockLike⟩
    let trees ← ahead
    if Peek.punct "." trees && !Peek.punct ".." trees || Peek.punct "?" trees then
      let e ← suffixes g e
      g.operators (e.withAttributes attributes) .lowest true
    else
      return e.withAttributes attributes
  | none =>
    let e ← g.operand true
    g.operators (e.withAttributes attributes) .lowest true

end PatternLint.Syntax.Grammar
