import PatternLint.Syntax.Grammar.Basic

/-!
This module contains the grammar of paths with generic arguments.
-/

namespace PatternLint.Syntax

structure PathTree (n : Nat) where
  qualified : Bool
  -- It starts with `::`.
  rooted : Bool
  segments : List Name
  -- The trees below the arguments of all segments and the qualifying type.
  arguments : List (Tree n)
  plain : Bool
  -- The last segment has no arguments, or an empty list of them.
  lastBare : Bool

namespace PathTree

variable {n : Nat}

def toTree (p : PathTree n) : Tree n :=
  .node (.path p.segments) p.arguments

def solitary (p : PathTree n) : Bool :=
  !p.qualified && !p.rooted && p.segments.length == 1

def startsMacro (p : PathTree n) : Peek :=
  fun trees =>
    !p.qualified && p.plain && Peek.punct "!" trees && !Peek.punct "!=" trees

end PathTree

namespace Grammar

open Syntax.Parser

variable {n : Nat} (g : Nested n)

def constArgument : Parser n (List (Tree n)) := do
  if ← peek Peek.literal then
    literal
    return []
  else if ← peek Peek.ident then
    return [.node (.path [← name]) []]
  else if ← peek (Peek.group .brace) then
    blockWithAttributes g
  else
    failExpected []

def argumentBinding : Parser n (List (Tree n)) := do
  if ← punct? "=" then
    if ← peek (Peek.any [Peek.literal, Peek.group .brace]) then
      constArgument g
    else
      return [(← g.type true).tree]
  else if ← punct? ":" then
    let stop := Peek.any [Peek.punct ",", Peek.punct ">"]
    let bounds ← separatedWhile g "+" stop (g.typeBound ⟨false, true⟩)
    return bounds.map TypeBound.tree
  else
    return []

def genericArgument : Parser n (List (Tree n)) := do
  if ← peek (Peek.and Peek.lifetime (Peek.second (Peek.not (Peek.punct "+")))) then
    lifetime
    return []
  if ← peek (Peek.any [Peek.literal, Peek.group .brace]) then
    return ← constArgument g
  let type ← g.type true
  match type.form with
  | .path true => return type.tree :: (← argumentBinding g)
  | _ => return [type.tree]

def genericArguments : Parser n (List (Tree n) × Bool) := do
  punct "<"
  let args ← separatedUntil g "," (Peek.punct ">") (genericArgument g)
  punct ">"
  return (args.flatten, !args.isEmpty)

structure Segment (n : Nat) where
  name : Name
  arguments : Option (List (Tree n) × Bool)

def pathSegment (inExpr : Bool) : Parser n (Segment n) := do
  if ← peek (oneOf ["super", "self", "crate", "try"]) then
    return ⟨← anyName, none⟩
  let name ← if ← peek (Peek.keyword "Self") then anyName else name
  if ← peek startsArguments then
    let _ ← punct? "::"
    return ⟨name, some (← genericArguments g)⟩
  else
    return ⟨name, none⟩
where
  startsArguments : Peek := fun trees =>
    !inExpr && Peek.punct "<" trees && !Peek.punct "<=" trees && !Peek.punct "<<=" trees ||
      Peek.punct "::" trees && Peek.third (Peek.punct "<") trees

def moreSegments (inExpr : Bool) (more : Peek) : Parser n (List (Segment n)) :=
  whileSeen g more do
    punct "::"
    pathSegment g inExpr

def Segment.toPath (qualified rooted : Bool) (front : List (Tree n)) (segments : List (Segment n)) :
    PathTree n where
  qualified := qualified
  rooted := rooted
  segments := segments.map Segment.name
  arguments := front ++ segments.flatMap fun s => (s.arguments.map Prod.fst).getD []
  plain := segments.all fun s => s.arguments.isNone
  lastBare := segments.getLast?.all fun s => (s.arguments.map Prod.snd).getD false == false

def simplePath (inExpr : Bool) : Parser n (PathTree n) := do
  let rooted ← punct? "::"
  let first ← pathSegment g inExpr
  let more := Peek.and (Peek.punct "::") (Peek.third (Peek.not (Peek.group .parenthesis)))
  let rest ← moreSegments g inExpr more
  return Segment.toPath false rooted [] (first :: rest)

def path (inExpr : Bool) : Parser n (PathTree n) := do
  if ← punct? "<" then
    let this ← g.type true
    let trait? ← afterKeyword? "as" (simplePath g false)
    punct ">"
    punct "::"
    let first ← pathSegment g inExpr
    let rest ← moreSegments g inExpr (Peek.punct "::")
    let front := this.tree :: (trait?.map PathTree.arguments).getD []
    let path := Segment.toPath true false front (first :: rest)
    return { path with segments := (trait?.map PathTree.segments).getD [] ++ path.segments }
  else
    simplePath g inExpr

def parenthesizedArguments : Parser n (List (Tree n)) := do
  let inputs ← delimited .parenthesis (commaSeparated g (g.type true))
  let output ← afterPunct? "->" (g.type false)
  return (inputs ++ output.toList).map TypeTree.tree

end Grammar

end PatternLint.Syntax
