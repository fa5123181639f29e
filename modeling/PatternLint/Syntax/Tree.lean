import PatternLint.Syntax.Token

/-!
This module contains the syntax trees that source files are parsed into. A tree keeps what a
pattern can select, each with its name or path and its place, and the nesting of all constructs.
-/

namespace PatternLint.Syntax

structure Name where
  text : String
  location : Location
  deriving Repr, DecidableEq

def pathText (segments : List Name) : String :=
  "::".intercalate (segments.map Name.text)

inductive UseTree where
  -- `name::rest`
  | path (name : Name) (rest : UseTree)
  -- `name`
  | name (name : Name)
  -- `name as other`
  | rename (name : Name)
  -- `*`
  | glob (star : Location)
  -- `{item, ...}`
  | group (items : List UseTree)
  deriving Repr

/--
The tokens between the brackets of a macro call, and where the brackets close. They have a size below
`n`, so what is read from them has bodies of smaller sizes only.
-/
structure MacroBody (n : Nat) where
  tokens : List TokenTree
  closing : Location
  small : TokenTree.listSize tokens < n

inductive Head (n : Nat) where
  | function (name : Name)
  | struct (name : Name)
  | enum (name : Name)
  | trait (name : Name)
  | methodCall (method : Name)
  | call
  | path (segments : List Name)
  | macroCall (path : List Name) (body : MacroBody n)
  | useDeclaration (tree : UseTree)
  | unsafeBlock (keyword : Location)
  | other

inductive Tree (n : Nat) where
  | node (head : Head n) (children : List (Tree n))

namespace Tree

variable {n : Nat}

instance : Inhabited (Tree n) where
  default := node .other []

def ofChildren (ts : List (Tree n)) : Tree n :=
  node .other ts

def withAttributes (ts : List (Tree n)) (t : Tree n) : Tree n :=
  if ts.isEmpty then t else ofChildren (ts ++ [t])

end Tree

end PatternLint.Syntax
