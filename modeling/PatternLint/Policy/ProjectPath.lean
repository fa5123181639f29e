import PatternLint.FileTree
import PatternLint.Policy.Error

/-!
This module contains the reading of the paths in a configuration: they are relative to the project
root, stay inside it, and stand for something that exists.
-/

namespace PatternLint

def Path.extend (root : Path) (names : List RawText) : Path :=
  names.foldl (fun p name => p.join ⟨name⟩) root

def Path.normalNames? (p : Path) : Option (List RawText) :=
  p.components.foldr
    (fun component names? =>
      match component with
      | .normal name => names?.map (name :: ·)
      | .current => names?
      | .parent | .root => none)
    (some [])

def projectPath (tree : FileTree) (root : Path) (text : String) : Except PathFault Path :=
  let relative : Path := ⟨text⟩
  if Text.isAllBlank text.toList then
    .error .blank
  else if relative.isAbsolute then
    .error .absolute
  else
    match relative.normalNames? with
    | none => .error .escaping
    | some names =>
      let path := root.extend names
      if tree.has path then .ok path else .error .missing

end PatternLint
