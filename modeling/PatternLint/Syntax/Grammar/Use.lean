import PatternLint.Syntax.Grammar.Basic

/-!
This module contains the grammar of `use` declarations.
-/

namespace PatternLint.Syntax.Grammar

open Syntax.Parser

variable {n : Nat} (g : Nested n)

def rename : Parser n Unit := do
  if ← peek (Peek.any [Peek.ident, Peek.keyword "_"]) then
    skip 1
  else
    failRule "expected identifier or underscore"

def useGroup (member : Parser n (Option UseTree)) : Parser n (Option (List UseTree)) := do
  return (← commaSeparated g member).mapM id

/--
A tree of imports. With `allowRoot`, the members of a group may start with `::`; the group is then
not looked into. The depth of the tree is bounded by `fuel`.
-/
def useTree (fuel : Nat) (allowRoot : Bool) : Parser n (Option UseTree) :=
  match fuel with
  | 0 => failTooDeep
  | fuel + 1 => do
    let start ← location
    if ← peek (Peek.any [Peek.ident, oneOf ["self", "super", "crate", "try"]]) then
      let name ← anyName
      if ← punct? "::" then
        return (← useTree fuel false).map (UseTree.path name)
      else if ← keyword? "as" then
        rename
        return some (.rename name)
      else
        return some (.name name)
    else if ← punct? "*" then
      return some (.glob start)
    else if ← peek (Peek.group .brace) then
      let members ← delimited .brace <| useGroup g do
        let rooted ← if allowRoot then punct? "::" else pure false
        if rooted then
          let _ ← useTree fuel false
          return none
        else
          useTree fuel allowRoot
      return members.map UseTree.group
    else
      failExpected ["identifier", quote "self", quote "super", quote "crate", quote "try",
        quote "*", "curly braces"]

def useDeclaration : Parser n (Option (Tree n)) := do
  keyword "use"
  let rooted ← punct? "::"
  let tree? ← useTree g g.steps !rooted
  punct ";"
  return tree?.map fun tree => .node (.useDeclaration tree) []

end PatternLint.Syntax.Grammar
