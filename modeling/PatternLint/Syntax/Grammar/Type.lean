import PatternLint.Syntax.Grammar.Generics

/-!
This module contains the grammar of types.
-/

namespace PatternLint.Syntax.Grammar

open Syntax.Parser

variable {n : Nat} (g : Nested n)

def plainType (ts : List (Tree n)) : TypeTree n :=
  ⟨.ofChildren ts, .plain⟩

def abi? : Parser n Bool := do
  if ← keyword? "extern" then
    if ← peek Peek.string then literal
    return true
  else
    return false

def functionTypeArgument (first : Bool) : Parser n (List (Tree n)) := do
  let trees ← ahead
  let mutableSelf :=
    first && Peek.keyword "mut" trees && Peek.second (Peek.keyword "self") trees
  if mutableSelf then
    skip 1
  let named : Peek := fun trees =>
    (Peek.ident trees || Peek.keyword "_" trees || first && Peek.keyword "self" trees) &&
      Peek.second (Peek.punct ":") trees && !Peek.second (Peek.punct "::") trees
  if ← peek named then
    let _ ← anyIdent
    punct ":"
    let type ← g.type true
    return if mutableSelf then [] else [type.tree]
  else if mutableSelf then
    keyword "self"
    return []
  else
    return [(← g.type true).tree]

def functionTypeArguments : Parser n (List (Tree n)) := do
  let first ← argument true
  match first with
  | .done trees => return trees
  | .next trees => loop g.steps step trees
where
  startsVariadic : Peek := fun trees =>
    Peek.punct "..." trees ||
      (Peek.ident trees || Peek.keyword "_" trees) && Peek.second (Peek.punct ":") trees &&
        Peek.third (Peek.punct "...") trees
  argument (first : Bool) : Parser n (Step (List (Tree n)) (List (Tree n))) := do
    if ← isEmpty then
      return .done []
    let attributes ← outerAttributes g
    if ← peek startsVariadic then
      if ← peek Peek.word then
        let _ ← anyIdent
        punct ":"
      punct "..."
      let _ ← punct? ","
      return .done attributes
    let trees := attributes ++ (← functionTypeArgument g first)
    if ← isEmpty then
      return .done trees
    punct ","
    return .next trees
  step (acc : List (Tree n)) : Parser n (Step (List (Tree n)) (List (Tree n))) := do
    match ← argument false with
    | .next trees => return .next (acc ++ trees)
    | .done trees => return .done (acc ++ trees)

def functionType : Parser n (List (Tree n)) := do
  let _ ← keyword? "unsafe"
  let _ ← abi?
  keyword "fn"
  let inputs ← delimited .parenthesis (functionTypeArguments g)
  let output ← afterPunct? "->" (g.type false)
  return inputs ++ (output.map TypeTree.tree).toList

def addedBounds : Parser n (List (Tree n)) :=
  whileSeen g (Peek.punct "+") do
    punct "+"
    return (← g.typeBound ⟨false, false⟩).tree

def tupleTypeRest (first : TypeTree n) : Parser n (List (Tree n)) := do
  punct ","
  let rest ← commaSeparated g (g.type true)
  return first.tree :: rest.map TypeTree.tree

inductive InParentheses (n : Nat) where
  | complete (trees : List (Tree n))
  | relaxedBound (tree : Tree n)
  | single (type : TypeTree n)

def inParentheses : Parser n (InParentheses n) := do
  if ← isEmpty then
    return .complete []
  if ← peek Peek.lifetime then
    return .complete (← objectBounds)
  if ← peek (Peek.punct "?") then
    return .relaxedBound (← traitBound g true)
  let first ← g.type true
  if ← peek (Peek.punct ",") then
    return .complete (← tupleTypeRest g first)
  else
    return .single first
where
  objectBounds : Parser n (List (Tree n)) := do
    let start ← location
    let bounds ← typeBounds g true ⟨false, true⟩
    unless bounds.any TypeBound.isTrait do
      failAt start (.rule "at least one trait is required for an object type")
    return bounds.map TypeBound.tree

def parenthesizedType (allowPlus : Bool) : Parser n (TypeTree n) := do
  match ← delimited .parenthesis (inParentheses g) with
  | .complete trees => return plainType trees
  | .relaxedBound tree =>
    let more ← addedBounds g
    return ⟨.ofChildren (tree :: more), if more.isEmpty then .bound else .plain⟩
  | .single type =>
    match type.form with
    | .plain => return plainType [type.tree]
    | .path _ | .bound =>
      if allowPlus then
        return plainType (type.tree :: (← addedBounds g))
      else
        return plainType [type.tree]

def startsTypePath : Peek :=
  Peek.any [Peek.ident, oneOf pathWords, Peek.punct "::", Peek.punct "<"]

def pathType (allowPlus : Bool) (binder? : Option (List (Tree n))) : Parser n (TypeTree n) := do
  let path ← path g false
  let tree := Tree.ofChildren path.arguments
  if path.qualified then
    return ⟨tree, .plain⟩
  if ← peek path.startsMacro then
    punct "!"
    return plainType [(← macroBody path.segments).1]
  if binder?.isNone && !(allowPlus && (← peek (Peek.punct "+"))) then
    return ⟨tree, .path path.solitary⟩
  let front := binder?.getD [] ++ [tree]
  let plus ← if allowPlus then punct? "+" else pure false
  if plus then
    if ← peek startsBound then
      return plainType (front ++ (← moreBounds))
    else
      return plainType front
  return ⟨.ofChildren front, .bound⟩
where
  moreBounds : Parser n (List (Tree n)) :=
    loop g.steps step []
  step (acc : List (Tree n)) : Parser n (Step (List (Tree n)) (List (Tree n))) := do
    let acc := (← g.typeBound ⟨false, false⟩).tree :: acc
    if ← punct? "+" then
      if ← peek startsBound then
        return .next acc
    return .done acc.reverse

def boundsWithTrait (start : Location) (allowPlus : Bool) (allowed : TypeBound.Allowed)
    (failure : String) : Parser n (List (Tree n)) := do
  let bounds ← typeBounds g allowPlus allowed
  unless bounds.any TypeBound.isTrait do
    failAt start (.rule failure)
  return bounds.map TypeBound.tree

def objectType (start : Location) (allowPlus : Bool) : Parser n (List (Tree n)) :=
  boundsWithTrait g start allowPlus ⟨false, true⟩
    "at least one trait is required for an object type"

def bracketedType : Parser n (List (Tree n)) :=
  delimited .bracket do
    let element ← g.type true
    if ← punct? ";" then
      return [element.tree, (← g.expr true).tree]
    else
      return [element.tree]

def typeStarts : List String :=
  [quote "for", "parentheses", quote "fn", quote "unsafe", quote "extern", "identifier",
    quote "::", quote "<", quote "dyn", "square brackets", quote "*", quote "&", quote "!",
    quote "impl", quote "_", "lifetime"]

def type (allowPlus : Bool) : Parser n (TypeTree n) := do
  let start ← location
  let binder? ← binder? g
  let trees ← ahead
  let startsFunction := oneOf ["fn", "unsafe", "extern"] trees
  if binder?.isSome then
    unless startsFunction || Peek.ident trees || oneOf pathWords trees do
      failExpected ["identifier", quote "fn", quote "unsafe", quote "extern", quote "super",
        quote "self", quote "Self", quote "crate"]
  if Peek.group .parenthesis trees then
    parenthesizedType g allowPlus
  else if startsFunction then
    return plainType (binder?.getD [] ++ (← functionType g))
  else if startsTypePath trees then
    pathType g allowPlus binder?
  else if Peek.keyword "dyn" trees then
    skip 1
    let star ← punct? "*"
    let bounds ← objectType g start allowPlus
    return plainType (if star then [] else bounds)
  else if Peek.group .bracket trees then
    return plainType (← bracketedType g)
  else if Peek.punct "*" trees then
    skip 1
    unless ← keyword? "const" do
      unless ← keyword? "mut" do failExpected [quote "const", quote "mut"]
    return plainType [(← g.type false).tree]
  else if Peek.punct "&" trees then
    skip 1
    let _ ← lifetime?
    let _ ← keyword? "mut"
    return plainType [(← g.type false).tree]
  else if Peek.punct "!" trees then
    skip 1
    return plainType []
  else if Peek.keyword "impl" trees then
    skip 1
    return plainType <| ←
      boundsWithTrait g start allowPlus ⟨true, true⟩ "at least one trait must be specified"
  else if Peek.keyword "_" trees then
    skip 1
    return plainType []
  else if Peek.lifetime trees then
    return plainType (← objectType g start true)
  else
    failExpected typeStarts

end PatternLint.Syntax.Grammar
