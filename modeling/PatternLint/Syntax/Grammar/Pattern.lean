import PatternLint.Syntax.Grammar.Type
import PatternLint.Text.Char

/-!
This module contains the grammar of patterns, and what they share with expressions: the dots of
ranges and the members of structs.
-/

namespace PatternLint.Syntax.Grammar

open Syntax.Parser

variable {n : Nat} (g : Nested n)

structure Dots where
  location : Location
  closed : Bool

def rangeDots : Parser n Dots := do
  let start ← location
  if ← punct? "..=" then
    return ⟨start, true⟩
  else if ← peek (Peek.punct "...") then
    failExpected [quote "..="]
  else if ← punct? ".." then
    return ⟨start, false⟩
  else
    failExpected [quote ".."]

def patternDots : Parser n Dots := do
  let start ← location
  if ← punct? "..." then
    return ⟨start, true⟩
  else
    rangeDots

def splitRadix (text : List Char) : Nat × List Char :=
  match text with
  | '0' :: 'x' :: rest => (16, rest)
  | '0' :: 'o' :: rest => (8, rest)
  | '0' :: 'b' :: rest => (2, rest)
  | _ => (10, text)

def indexFailure? (text : String) : Option String :=
  let (radix, rest) := splitRadix text.toList
  let isDigit (c : Char) : Bool :=
    c == '_' || (Text.isHexDigit c && Text.hexDigitValue c < radix)
  if rest.any fun c => !isDigit c then
    some "expected unsuffixed integer"
  else
    let value := (rest.filter (· != '_')).foldl (fun n c => n * radix + Text.hexDigitValue c) 0
    if value < UInt32.size then none else some "number too large to fit in target type"

def member : Parser n (Option Name) := do
  match (← ahead) with
  | .literal (.integer text) l :: _ =>
    match indexFailure? text with
    | none =>
      skip 1
      return none
    | some failure => failAt l (.rule failure)
  | _ =>
    if ← peek Peek.ident then
      return some (← name)
    else
      failRule "expected identifier or integer"

def plainPattern (ts : List (Tree n)) : Pattern n :=
  ⟨.ofChildren ts, .plain⟩

def startsAlternative : Peek := fun trees =>
  Peek.punct "|" trees && !Peek.punct "||" trees && !Peek.punct "|=" trees

def alternatives : Parser n (Pattern n) := do
  let leading ← punct? "|"
  let first ← g.pattern
  if leading || (← peek startsAlternative) then
    let rest ← whileSeen g startsAlternative do
      punct "|"
      return (← g.pattern).tree
    return plainPattern (first.tree :: rest)
  else
    return first

def patterns : Parser n (List (Tree n)) := do
  return (← commaSeparated g (alternatives g)).map Pattern.tree

def endsRange : Peek := fun trees =>
  trees.isEmpty || Peek.punct "|" trees || Peek.punct "=" trees ||
    Peek.punct ":" trees && !Peek.punct "::" trees || Peek.punct "," trees ||
    Peek.punct ";" trees || Peek.keyword "if" trees

def constBlock : Parser n (List (Tree n)) := do
  keyword "const"
  blockWithAttributes g

def rangeBound : Parser n (Tree n) := do
  if ← peek Peek.literal then
    literal
    return .ofChildren []
  else if ← peek startsTypePath then
    return (← path g true).toTree
  else if ← peek (Peek.keyword "const") then
    return .ofChildren (← constBlock g)
  else
    failExpected ["literal", "identifier", quote "::", quote "<", quote "self", quote "Self",
      quote "super", quote "crate", quote "const"]

def rangeBound? : Parser n (Option (Tree n)) := do
  if ← peek endsRange then
    return none
  else
    return some (← rangeBound g)

def rangeFrom (start : Tree n) : Parser n (Pattern n) := do
  let dots ← patternDots
  match ← rangeBound? g with
  | some tree => return plainPattern [start, tree]
  | none =>
    if dots.closed then
      failRule "expected range upper bound"
    return ⟨start, .openRange dots.location⟩

def rangeWithoutStart : Parser n (Pattern n) := do
  let dots ← rangeDots
  match ← rangeBound? g with
  | some tree => return ⟨tree, .openRange dots.location⟩
  | none =>
    if dots.closed then
      failRule "expected range upper bound"
    return ⟨.ofChildren [], .rest⟩

def fieldPattern : Parser n (List (Tree n)) := do
  let boxed ← keyword? "box"
  let byRef ← keyword? "ref"
  let mutable ← keyword? "mut"
  let marked := boxed || byRef || mutable
  let member ← if marked then some <$> name else member
  if member.isNone || !marked && (← peek (Peek.punct ":")) then
    punct ":"
    return [(← alternatives g).tree]
  else
    return []

def fieldPatterns : Parser n (List (Tree n)) :=
  loop g.steps step []
where
  step (acc : List (Tree n)) : Parser n (Step (List (Tree n)) (List (Tree n))) := do
    if ← isEmpty then
      return .done acc
    let attributes ← outerAttributes g
    if ← punct? ".." then
      return .done (acc ++ attributes)
    let acc := acc ++ attributes ++ (← fieldPattern g)
    if ← isEmpty then
      return .done acc
    punct ","
    return .next acc

def pathPattern : Parser n (Pattern n) := do
  let path ← path g true
  let trees ← ahead
  if path.startsMacro trees then
    punct "!"
    return plainPattern [(← macroBody path.segments).1]
  else if Peek.group .brace trees then
    return plainPattern (path.arguments ++ (← delimited .brace (fieldPatterns g)))
  else if Peek.group .parenthesis trees then
    return plainPattern (path.arguments ++ (← delimited .parenthesis (patterns g)))
  else if Peek.punct ".." trees then
    rangeFrom g path.toTree
  else
    return plainPattern [path.toTree]

def constantPattern : Parser n (Pattern n) := do
  let start ← rangeBound g
  if ← peek (Peek.punct "..") then
    rangeFrom g start
  else
    return plainPattern [start]

def bindingPattern : Parser n (Pattern n) := do
  let _ ← keyword? "ref"
  let _ ← keyword? "mut"
  unless ← keyword? "self" do
    let _ ← ident
  match ← afterPunct? "@" g.pattern with
  | some sub => return plainPattern [sub.tree]
  | none => return plainPattern []

def parenthesizedPattern : Parser n (Pattern n) := do
  return plainPattern (← delimited .parenthesis (patterns g))

def slicePattern : Parser n (Pattern n) :=
  plainPattern <$> delimited .bracket do
    return (← commaSeparated g element).map Pattern.tree
where
  element : Parser n (Pattern n) := do
    let pattern ← alternatives g
    match pattern.form with
    | .openRange dots =>
      failAt dots (.rule "range pattern is not allowed unparenthesized inside slice pattern")
    | _ => return pattern

def startsPathPattern : Peek := fun trees =>
  Peek.ident trees &&
      Peek.second (Peek.any [Peek.punct "::", Peek.punct "!", Peek.group .brace,
        Peek.group .parenthesis, Peek.punct ".."]) trees ||
    Peek.keyword "self" trees && Peek.second (Peek.punct "::") trees ||
    Peek.punct "::" trees || Peek.punct "<" trees || oneOf ["Self", "super", "crate"] trees

def patternStarts : List String :=
  ["identifier", quote "::", quote "<", quote "_", "literal", quote "const", quote "ref",
    quote "mut", quote "&", "parentheses", "square brackets", quote ".."]

def pattern : Parser n (Pattern n) := do
  let trees ← ahead
  if startsPathPattern trees then
    pathPattern g
  else if Peek.keyword "_" trees then
    skip 1
    return plainPattern []
  else if Peek.keyword "box" trees then
    skip 1
    let _ ← g.pattern
    return plainPattern []
  else if Peek.punct "-" trees || Peek.literal trees || Peek.keyword "const" trees then
    constantPattern g
  else if Peek.ident trees || oneOf ["ref", "mut", "self"] trees then
    bindingPattern g
  else if Peek.punct "&" trees then
    skip 1
    let _ ← keyword? "mut"
    return plainPattern [(← g.pattern).tree]
  else if Peek.group .parenthesis trees then
    parenthesizedPattern g
  else if Peek.group .bracket trees then
    slicePattern g
  else if Peek.punct ".." trees && !Peek.punct "..." trees then
    rangeWithoutStart g
  else
    failExpected patternStarts

end PatternLint.Syntax.Grammar
