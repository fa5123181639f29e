import PatternLint.Syntax.Grammar.Statement

/-!
This module contains the grammar of functions: their arguments, their signatures and their bodies.
-/

namespace PatternLint.Syntax

structure Signature (n : Nat) where
  name : Name
  trees : List (Tree n)
  safe : Bool

def Signature.toTree (s : Signature n) (body : List (Tree n)) : Tree n :=
  .node (.function s.name) (s.trees ++ body)

namespace Grammar

open Syntax.Parser

variable {n : Nat} (g : Nested n)

def receiver : Parser n (Location × List (Tree n)) := do
  let borrowed ← punct? "&"
  if borrowed then
    let _ ← lifetime?
  let _ ← keyword? "mut"
  let location ← location
  keyword "self"
  let typed ← if borrowed then pure false else punct? ":"
  if typed then
    return (location, [(← g.type true).tree])
  else
    return (location, [])

inductive Argument where
  | receiver (location : Location)
  | typed
  | variadic

def argument : Parser n (Argument × List (Tree n)) := do
  if let some (location, trees) ← optional? (receiver g) then
    return (.receiver location, trees)
  if ← peek (Peek.and Peek.ident (Peek.second (Peek.punct "<"))) then
    return (.typed, [(← g.type true).tree])
  let pattern ← g.pattern
  punct ":"
  if ← punct? "..." then
    return (.variadic, [pattern.tree])
  else
    return (.typed, [pattern.tree, (← g.type true).tree])

structure ArgumentsSoFar (n : Nat) where
  trees : List (Tree n) := []
  isEmpty : Bool := true
  hasReceiver : Bool := false

def arguments : Parser n (List (Tree n)) :=
  loop g.steps step {}
where
  step (acc : ArgumentsSoFar n) : Parser n (Step (ArgumentsSoFar n) (List (Tree n))) := do
    if ← isEmpty then
      return .done acc.trees
    let attributes ← outerAttributes g
    if ← punct? "..." then
      return ← finish (acc.trees ++ attributes)
    let (kind, trees) ← argument g
    let trees := acc.trees ++ attributes ++ trees
    if let .variadic := kind then
      return ← finish trees
    if let .receiver location := kind then
      if acc.hasReceiver then
        failAt location (.rule "unexpected second method receiver")
      unless acc.isEmpty do
        failAt location (.rule "unexpected method receiver")
    if ← isEmpty then
      return .done trees
    punct ","
    let isReceiver := match kind with
      | .receiver _ => true
      | _ => false
    return .next ⟨trees, false, acc.hasReceiver || isReceiver⟩
  finish (trees : List (Tree n)) : Parser n (Step (ArgumentsSoFar n) (List (Tree n))) := do
    unless ← isEmpty do punct ","
    return .done trees

def startsFunction (allowSafe : Bool) (trees : List TokenTree) : Bool :=
  let trees := drop (Peek.keyword "const") trees
  let trees := drop (Peek.keyword "async") trees
  let trees :=
    if allowSafe && Peek.keyword "safe" trees then trees.drop 1
    else drop (Peek.keyword "unsafe") trees
  let trees :=
    if Peek.keyword "extern" trees then drop Peek.string (trees.drop 1) else trees
  Peek.keyword "fn" trees
where
  drop (p : Peek) (trees : List TokenTree) : List TokenTree :=
    if p trees then trees.drop 1 else trees

def signature (allowSafe : Bool) : Parser n (Signature n) := do
  let _ ← keyword? "const"
  let _ ← keyword? "async"
  let isUnsafe ← keyword? "unsafe"
  let safe ← if allowSafe && !isUnsafe then keyword? "safe" else pure false
  let _ ← abi?
  keyword "fn"
  let name ← name
  let generics? ← parameters? g
  let inputs ← delimited .parenthesis (arguments g)
  let output? ← afterPunct? "->" (g.type true)
  let where? ← whereClause? g
  let output := (output?.map TypeTree.tree).toList
  return ⟨name, generics?.getD [] ++ inputs ++ output ++ where?.getD [], safe⟩

def function : Parser n (Option (Tree n)) := do
  let s ← signature g false
  if ← punct? ";" then
    return none
  else
    return some (s.toTree (← blockWithAttributes g))

def traitFunction : Parser n (Tree n) := do
  let s ← signature g false
  if ← peek (Peek.group .brace) then
    return s.toTree (← blockWithAttributes g)
  else if ← punct? ";" then
    return s.toTree []
  else
    failExpected ["curly braces", quote ";"]

def foreignFunction : Parser n (Option (Tree n)) := do
  let s ← signature g true
  if ← peek (Peek.group .brace) then
    -- a body is accepted here, but not looked into
    let _ ← blockWithAttributes g
    return none
  punct ";"
  return if s.safe then none else some (.ofChildren s.trees)

end Grammar

end PatternLint.Syntax
