import PatternLint.Pattern.NodePattern
import PatternLint.Syntax.File

/-!
This module contains the search of a syntax tree for the nodes that a pattern accepts.
-/

namespace PatternLint

namespace Syntax

structure UseTree.Leaf where
  path : List String
  location : Location
  deriving DecidableEq, Repr

namespace UseTree

mutual

def leavesBelow (before : List String) : UseTree → List Leaf
  | .path first rest => leavesBelow (before ++ [first.text]) rest
  | .name last => [⟨before ++ [last.text], last.location⟩]
  | .rename last => [⟨before ++ [last.text], last.location⟩]
  | .glob star => [⟨before ++ ["*"], star⟩]
  | .group items => listLeavesBelow before items

def listLeavesBelow (before : List String) : List UseTree → List Leaf
  | [] => []
  | item :: items => leavesBelow before item ++ listLeavesBelow before items

end

def leaves (tree : UseTree) : List Leaf :=
  tree.leavesBelow []

def Leaf.text (leaf : Leaf) : String :=
  "::".intercalate leaf.path

end UseTree

end Syntax

namespace NodePattern

open Syntax (Name Tree pathText)

variable (p : NodePattern)

def check (kind : NodeKind) (subject : String) (location : Location) : List Location :=
  if p.accepts kind subject then [location] else []

def checkPath (kind : NodeKind) (segments : List Name) : List Location :=
  match segments with
  | [] => []
  | first :: _ => p.check kind (pathText segments) first.location

def checkCallee {n : Nat} : List (Tree n) → List Location
  | .node (.path segments) _ :: _ => p.checkPath .call segments
  | _ => []

end NodePattern

namespace Syntax

def Head.found (p : NodePattern) {n : Nat} (children : List (Tree n)) : Head n → List Location
  | .function name => p.check .function name.text name.location
  | .struct name => p.check .struct name.text name.location
  | .enum name => p.check .enum name.text name.location
  | .trait name => p.check .trait name.text name.location
  | .methodCall method => p.check .methodCall method.text method.location
  -- what no term asks for need not be spelled out
  | .call => if p.wants .call then p.checkCallee children else []
  | .macroCall segments _ => p.checkPath .macroCall segments
  | .useDeclaration tree =>
    if p.wants .useLeaf then
      tree.leaves.flatMap fun leaf => p.check .useLeaf leaf.text leaf.location
    else
      []
  | .unsafeBlock keyword => p.check .unsafeBlock "" keyword
  | .path _ | .other => []

namespace Tree

section Found

variable {n : Nat} (p : NodePattern) (inBody : MacroBody n → List Location)

mutual

def foundWith : Tree n → List Location
  | .node head children =>
    let inArguments := match head with
      | .macroCall _ body => inBody body
      | _ => []
    head.found p children ++ foundInListWith children ++ inArguments

def foundInListWith : List (Tree n) → List Location
  | [] => []
  | tree :: trees => foundWith tree ++ foundInListWith trees

end

end Found

/--
The places of the nodes of a tree that a pattern accepts. A macro body is searched if it reads as
expressions.
-/
def found (p : NodePattern) : {n : Nat} → Tree n → List Location
  -- no body has a size below zero
  | 0 => foundWith p fun _ => []
  | _ + 1 => foundWith p fun body => (body.arguments?.getD []).flatMap (found p)

end Tree

end Syntax

def Location.le (l m : Location) : Bool :=
  l.line < m.line || l.line == m.line && l.column ≤ m.column

def NodePattern.find (p : NodePattern) (source : Syntax.SourceTree) : List Location :=
  (source.tree.found p).mergeSort Location.le

end PatternLint
