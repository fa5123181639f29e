import PatternLint.Text.Split

/-!
This module contains patterns for paths whose names are joined by `::`: `*` stands for one name and
`**` for any number of names.
-/

namespace PatternLint

inductive PathPattern.Segment where
  -- `**`
  | anyNames
  -- `*`
  | anyName
  | name (text : List Char)
  deriving DecidableEq, Repr

structure PathPattern where
  segments : List PathPattern.Segment
  deriving DecidableEq, Repr

namespace PathPattern

namespace Segment

def ofChars : List Char → Segment
  | ['*', '*'] => anyNames
  | ['*'] => anyName
  | cs => name cs

end Segment

def body (text : List Char) : List Char :=
  Text.dropColons (Text.trim text)

def parts (text : List Char) : List (List Char) :=
  (Text.splitAtColons (body text)).map Text.trim

def parse (text : String) : Except String PathPattern :=
  let parts := parts text.toList
  if parts.any List.isEmpty then
    .error (String.ofList (body text.toList))
  else
    .ok ⟨parts.map Segment.ofChars⟩

def matchSegments : List Segment → List (List Char) → Bool
  | [], names => names.isEmpty
  | .anyNames :: segments, names =>
    (Text.suffixes names).any fun rest => matchSegments segments rest
  | _ :: _, [] => false
  | .anyName :: segments, _ :: names => matchSegments segments names
  | .name text :: segments, name :: names => name == text && matchSegments segments names

def accepts (p : PathPattern) (path : String) : Bool :=
  matchSegments p.segments (Text.splitAtColons path.toList)

end PathPattern

end PatternLint
