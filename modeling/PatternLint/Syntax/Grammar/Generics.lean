import PatternLint.Syntax.Grammar.Path

/-!
This module contains the grammar of generic parameters, of the bounds on types and of `where`
clauses.
-/

namespace PatternLint.Syntax.Grammar

open Syntax.Parser

variable {n : Nat} (g : Nested n)

def lifetimeParameter : Parser n (List (Tree n)) := do
  lifetime
  if ← punct? ":" then
    let stop : Peek := fun trees =>
      trees.isEmpty || Peek.punct "," trees || Peek.punct ">" trees
    let _ ← separatedWhile g "+" stop lifetime
  return []

def typeParameter : Parser n (List (Tree n)) := do
  let _ ← ident
  let mut trees := []
  if ← punct? ":" then
    let stop : Peek := fun trees =>
      trees.isEmpty || Peek.punct "," trees || Peek.punct ">" trees || Peek.punct "=" trees
    let bounds ← separatedWhile g "+" stop (g.typeBound ⟨false, true⟩)
    trees := bounds.map TypeBound.tree
  let default? ← afterPunct? "=" (g.type true)
  return trees ++ (default?.map TypeTree.tree).toList

def constParameter : Parser n (List (Tree n)) := do
  keyword "const"
  let _ ← ident
  punct ":"
  let type ← g.type true
  let default? ← afterPunct? "=" (constArgument g)
  return type.tree :: default?.getD []

def binderParameter : Parser n (List (Tree n)) := do
  let attributes ← outerAttributes g
  let rest ←
    if ← peek Peek.ident then
      typeParameter g
    else if ← peek Peek.lifetime then
      lifetimeParameter g
    else if ← peek (Peek.keyword "const") then
      constParameter g
    else
      failExpected ["identifier", "lifetime", quote "const"]
  return attributes ++ rest

def binder : Parser n (List (Tree n)) := do
  keyword "for"
  punct "<"
  let trees ← separatedUntil g "," (Peek.punct ">") (binderParameter g)
  punct ">"
  return trees.flatten

def binder? : Parser n (Option (List (Tree n))) := do
  if ← peek (Peek.keyword "for") then
    return some (← binder g)
  else
    return none

def capture : Parser n Unit := do
  keyword "use"
  punct "<"
  loop g.steps step ()
  punct ">"
where
  step (_ : Unit) : Parser n (Step Unit Unit) := do
    if ← peek Peek.lifetime then
      lifetime
    else if ← peek (Peek.any [Peek.ident, Peek.keyword "Self"]) then
      let _ ← anyIdent
    else if ← peek (Peek.punct ">") then
      return .done ()
    else
      failExpected ["lifetime", "identifier", quote ">"]
    if ← punct? "," then
      return .next ()
    else if ← peek (Peek.punct ">") then
      return .done ()
    else
      failExpected [quote ",", quote ">"]

def boundConstness (allowConst : Bool) : Parser n Bool := do
  let start ← location
  if ← peek (Peek.group .bracket) then
    delimited .bracket (keyword "const")
    unless allowConst do failAt start (.rule "`[const]` is not allowed here")
    return true
  else if ← keyword? "const" then
    unless allowConst do failAt start (.rule "`const` is not allowed here")
    return true
  else
    return false

def traitBound (allowConst : Bool) : Parser n (Tree n) := do
  let start ← location
  let before? ← binder? g
  let unread ← boundConstness allowConst
  let relaxed ← punct? "?"
  let binder? ← if relaxed && before?.isNone then binder? g else pure before?
  let path ← simplePath g false
  let opensParenthesis : Peek := fun trees =>
    path.lastBare &&
      (Peek.group .parenthesis trees ||
        Peek.punct "::" trees && Peek.third (Peek.group .parenthesis) trees)
  let mut arguments := path.arguments
  if ← peek opensParenthesis then
    let _ ← punct? "::"
    arguments := arguments ++ (← parenthesizedArguments g)
  if relaxed && binder?.isSome then
    failAt start (.rule "`for<...>` binder not allowed with `?` trait polarity modifier")
  return .ofChildren (if unread then [] else binder?.getD [] ++ arguments)

def typeBound (allowed : TypeBound.Allowed) : Parser n (TypeBound n) := do
  if ← lifetime? then
    return ⟨.ofChildren [], false⟩
  if ← peek (Peek.keyword "use") then
    let start ← location
    capture g
    unless allowed.capture do
      failAt start (.rule "`use<...>` precise capturing syntax is not allowed here")
    return ⟨.ofChildren [], false⟩
  if ← peek (Peek.group .parenthesis) then
    return ⟨← delimited .parenthesis (traitBound g allowed.const), true⟩
  else
    return ⟨← traitBound g allowed.const, true⟩

def startsBound : Peek :=
  Peek.any [Peek.word, Peek.punct "::", Peek.punct "?", Peek.lifetime, Peek.group .parenthesis]

def typeBounds (allowPlus : Bool) (allowed : TypeBound.Allowed) : Parser n (List (TypeBound n)) :=
  loop g.steps step []
where
  step (acc : List (TypeBound n)) : Parser n (Step (List (TypeBound n)) (List (TypeBound n))) := do
    let acc := (← g.typeBound allowed) :: acc
    if !allowPlus then
      return .done acc.reverse
    if ← punct? "+" then
      if ← peek (Peek.any [startsBound, Peek.group .bracket]) then
        return .next acc
    return .done acc.reverse

/--
The next tokens start generic parameters, where they might also start a type in angle brackets that
qualifies a path.
-/
def startsGenerics : Peek := fun trees =>
  Peek.punct "<" trees &&
    (Peek.second (Peek.any [Peek.punct ">", Peek.punct "#", Peek.keyword "const"]) trees ||
      Peek.second (Peek.any [Peek.lifetime, Peek.ident]) trees &&
        Peek.third endsParameter trees)
where
  endsParameter : Peek := fun trees =>
    Peek.punct ">" trees || Peek.punct "," trees ||
      Peek.punct ":" trees && !Peek.punct "::" trees || Peek.punct "=" trees

def parameters : Parser n (List (Tree n)) := do
  punct "<"
  let trees ← separatedUntil g "," (Peek.punct ">") parameter
  punct ">"
  return trees.flatten
where
  parameter : Parser n (List (Tree n)) := do
    let attributes ← outerAttributes g
    let rest ←
      if ← peek Peek.lifetime then
        lifetimeParameter g
      else if ← peek Peek.ident then
        typeParameter g
      else if ← peek (Peek.keyword "const") then
        constParameter g
      else if ← keyword? "_" then
        pure []
      else
        failExpected ["lifetime", "identifier", quote "const"]
    return attributes ++ rest

def parameters? : Parser n (Option (List (Tree n))) := do
  if ← peek (Peek.punct "<") then
    return some (← parameters g)
  else
    return none

def endsPredicates : Peek := fun trees =>
  trees.isEmpty || Peek.group .brace trees || Peek.punct "," trees || Peek.punct ";" trees ||
    Peek.punct ":" trees && !Peek.punct "::" trees || Peek.punct "=" trees

def predicate : Parser n (List (Tree n)) := do
  if ← peek (Peek.and Peek.lifetime (Peek.second (Peek.punct ":"))) then
    lifetime
    punct ":"
    let _ ← separatedWhile g "+" (Peek.any [endsPredicates, Peek.punct ":"]) lifetime
    return []
  else
    let binder? ← binder? g
    let type ← g.type true
    punct ":"
    let bounds ← separatedWhile g "+" endsPredicates (g.typeBound ⟨false, true⟩)
    return binder?.getD [] ++ type.tree :: bounds.map TypeBound.tree

def whereClause? : Parser n (Option (List (Tree n))) := do
  if ← keyword? "where" then
    if ← peek startsGenerics then
      failRule "generic parameters on `where` clauses are reserved for future use"
    return some (← separatedWhile g "," endsPredicates (predicate g)).flatten
  else
    return none

end PatternLint.Syntax.Grammar
