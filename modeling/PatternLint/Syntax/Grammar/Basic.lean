import PatternLint.Syntax.Parser
import PatternLint.Syntax.Tree

/-!
This module contains what the grammar's rules share: the results of the rules that call each other,
lists with separators, attributes, visibility, plain paths and macro calls.
-/

namespace PatternLint.Syntax

inductive Expr.Form where
  | plain
  | blockLike
  | macroCall (braced : Bool)
  | range (dots : Option Location)
  | comparison
  | unread
  deriving DecidableEq, Repr

structure Expr (n : Nat) where
  tree : Tree n
  form : Expr.Form

namespace Expr

variable {n : Nat}

def ofTrees (ts : List (Tree n)) : Expr n :=
  ⟨.ofChildren ts, .plain⟩

def withAttributes (attributes : List (Tree n)) (e : Expr n) : Expr n :=
  if e.form = .unread then e else ⟨e.tree.withAttributes attributes, e.form⟩

end Expr

inductive TypeTree.Form where
  | plain
  -- A path; `solitary` if it is one name, with or without arguments.
  | path (solitary : Bool)
  -- One bound without `dyn`.
  | bound
  deriving DecidableEq, Repr

structure TypeTree (n : Nat) where
  tree : Tree n
  form : TypeTree.Form

structure TypeBound.Allowed where
  -- `use<...>`
  capture : Bool
  -- `const Trait` and `[const] Trait`
  const : Bool

structure TypeBound (n : Nat) where
  tree : Tree n
  isTrait : Bool

inductive Pattern.Form where
  | plain
  | rest
  | openRange (dots : Location)
  deriving DecidableEq, Repr

structure Pattern (n : Nat) where
  tree : Tree n
  form : Pattern.Form

inductive Precedence where
  | lowest
  | assign
  | range
  | or
  | and
  | binding
  | compare
  | bitOr
  | bitXor
  | bitAnd
  | shift
  | sum
  | product
  | cast
  deriving DecidableEq, Repr

def Precedence.rank : Precedence → Nat
  | lowest => 0
  | assign => 1
  | range => 2
  | or => 3
  | and => 4
  | binding => 5
  | compare => 6
  | bitOr => 7
  | bitXor => 8
  | bitAnd => 9
  | shift => 10
  | sum => 11
  | product => 12
  | cast => 13

namespace Grammar

/--
The rules of the grammar that call themselves through others, and a bound on the steps of their
loops. Every rule is a function of such a record, which stands for the rules one level of nesting
further down.
-/
structure Nested (n : Nat) where
  -- More than the number of tokens between any two brackets.
  steps : Nat
  -- An expression; without `allowStruct` an opening brace ends it.
  expr : (allowStruct : Bool) → Parser n (Expr n)
  operand : (allowStruct : Bool) → Parser n (Expr n)
  -- The operators after `left` that bind at least as tightly as `base`.
  operators : (left : Expr n) → (base : Precedence) → (allowStruct : Bool) → Parser n (Expr n)
  -- A type; without `allowPlus` no bound is added to it.
  type : (allowPlus : Bool) → Parser n (TypeTree n)
  -- One bound on a type, of the kinds that `allowed` lists beside traits and lifetimes.
  typeBound : (allowed : TypeBound.Allowed) → Parser n (TypeBound n)
  pattern : Parser n (Pattern n)
  /--
  An expression where a statement or the body of a match arm starts: no operator continues one that
  ends with its block.
  -/
  leadingExpr : Parser n (Expr n)
  statements : Parser n (List (Tree n))
  -- An item after its attributes, or `none` for one that is accepted and not looked into.
  item : Parser n (Option (Tree n))

open Syntax.Parser

variable {n : Nat} (g : Nested n)

def whileSeen {α : Type} (more : Peek) (p : Parser n α) : Parser n (List α) :=
  loop g.steps step []
where
  step (acc : List α) : Parser n (Step (List α) (List α)) := do
    if ← peek more then
      return .next ((← p) :: acc)
    else
      return .done acc.reverse

def commaSeparated {α : Type} (p : Parser n α) : Parser n (List α) :=
  loop g.steps step []
where
  step (acc : List α) : Parser n (Step (List α) (List α)) := do
    if ← isEmpty then
      return .done acc.reverse
    let a ← p
    if ← isEmpty then
      return .done (a :: acc).reverse
    punct ","
    return .next (a :: acc)

/--
Elements with `separator` between them, up to a token that `stop` accepts. That token may come
before an element, also after a trailing separator, and must come after an element that no
separator follows.
-/
def separatedUntil {α : Type} (separator : String) (stop : Peek) (p : Parser n α) :
    Parser n (List α) :=
  loop g.steps step []
where
  step (acc : List α) : Parser n (Step (List α) (List α)) := do
    if ← peek stop then
      return .done acc.reverse
    let a ← p
    if ← peek stop then
      return .done (a :: acc).reverse
    punct separator
    return .next (a :: acc)

/--
Elements with `separator` between them. The list ends before a token that `stop` accepts, and after
an element that no separator follows.
-/
def separatedWhile {α : Type} (separator : String) (stop : Peek) (p : Parser n α) :
    Parser n (List α) :=
  loop g.steps step []
where
  step (acc : List α) : Parser n (Step (List α) (List α)) := do
    if ← peek stop then
      return .done acc.reverse
    let a ← p
    if ← punct? separator then
      return .next (a :: acc)
    else
      return .done (a :: acc).reverse

def afterKeyword? {α : Type} (text : String) (p : Parser n α) : Parser n (Option α) := do
  if ← keyword? text then
    return some (← p)
  else
    return none

def afterPunct? {α : Type} (text : String) (p : Parser n α) : Parser n (Option α) := do
  if ← punct? text then
    return some (← p)
  else
    return none

def endsInBraces {α : Type} (p : Parser n α) : Parser n (α × Bool) := do
  let before ← ahead
  let a ← p
  let after ← ahead
  let taken := before.take (before.length - after.length)
  return (a, taken.getLast?.any fun tree => Peek.group .brace [tree])

def pathWords : List String :=
  ["super", "self", "Self", "crate"]

def oneOf (words : List String) : Peek
  | .ident name _ :: _ => words.contains name
  | _ => false

def anyName : Parser n Name := do
  let (text, location) ← anyIdent
  return ⟨text, location⟩

def name : Parser n Name := do
  let (text, location) ← ident
  return ⟨text, location⟩

def nameOrUnderscore : Parser n Name := do
  if ← peek (Peek.any [Peek.ident, Peek.keyword "_"]) then
    anyName
  else
    failExpected ["identifier", quote "_"]

def plainPath : Parser n (List Name) := do
  let _ ← punct? "::"
  loop g.steps step []
where
  step (acc : List Name) : Parser n (Step (List Name) (List Name)) := do
    if ← peek (Peek.any [Peek.ident, oneOf pathWords]) then
      let segment ← anyName
      if ← punct? "::" then
        return .next (segment :: acc)
      else
        return .done (segment :: acc).reverse
    else if acc.isEmpty then
      let _ ← ident
      return .done []
    else
      failRule "expected path segment after `::`"

def soleLiteral : Parser n Unit := do
  literal
  unless ← isEmpty do failExpected []

/--
The content of an attribute. Only an expression after an equals sign is a tree; arguments in
brackets are not looked into.
-/
def attributeContent : Parser n (List (Tree n)) := do
  if ← keyword? "unsafe" then
    pure ()
  else
    let _ ← plainPath g
  match (← ahead) with
  | .group .. :: _ =>
    skip 1
    return []
  | _ =>
    if ← punct? "=" then
      if (← optional? soleLiteral).isSome then
        return []
      if Peek.and (Peek.punct "#") (Peek.second (Peek.group .bracket)) (← ahead) then
        failRule "unexpected attribute inside of attribute"
      return [(← g.expr true).tree]
    else
      return []

def outerAttribute : Parser n (List (Tree n)) := do
  punct "#"
  delimited .bracket (attributeContent g)

def outerAttributes : Parser n (List (Tree n)) := do
  return (← whileSeen g (Peek.punct "#") (outerAttribute g)).flatten

def innerAttributes : Parser n (List (Tree n)) := do
  return (← whileSeen g starts single).flatten
where
  starts : Peek :=
    Peek.and (Peek.punct "#") (Peek.second (Peek.punct "!"))
  single : Parser n (List (Tree n)) := do
    punct "#"
    punct "!"
    delimited .bracket (attributeContent g)

def restriction : Parser n Bool := do
  if ← peek (oneOf ["crate", "self", "super"]) then
    let _ ← anyName
    isEmpty
  else if ← keyword? "in" then
    let _ ← plainPath g
    return true
  else
    return false

def visibility : Parser n Bool := do
  if ← keyword? "pub" then
    if ← peek (Peek.group .parenthesis) then
      restrictedOrNot
    return true
  else
    return false
where
  restrictedOrNot : Parser n Unit :=
    fun input =>
      match delimited .parenthesis (restriction g) input with
      | .ok (true, rest) => .ok ((), rest)
      | .ok (false, _) => .ok ((), input)
      | .error e => .error e

def macroBody (path : List Name) : Parser n (Tree n × Bool) := do
  match ← anyGroup? with
  | some (delimiter, body) => return (.node (.macroCall path body) [], delimiter == .brace)
  | none => failRule "expected delimiter"

def block : Parser n (List (Tree n)) :=
  delimited .brace g.statements

def blockWithAttributes : Parser n (List (Tree n)) :=
  delimited .brace do
    let attributes ← innerAttributes g
    return attributes ++ (← g.statements)

end Grammar

end PatternLint.Syntax
