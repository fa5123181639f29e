import PatternLint.Text.Split

/-!
This module contains globs: patterns for names in which `*` stands for any text, `?` for any
character, and brackets for one character out of some.
-/

namespace PatternLint

inductive Glob.CharClass where
  | single (c : Char)
  -- The characters from `lo` to `hi`, both included.
  | range (lo hi : Char)
  deriving DecidableEq, Repr

inductive Glob.Token where
  | char (c : Char)
  -- `?`
  | anyChar
  -- `*`
  | anySequence
  -- `**` as a whole path component
  | anyComponents
  -- `[...]`
  | within (classes : List Glob.CharClass)
  -- `[!...]`
  | except (classes : List Glob.CharClass)
  deriving DecidableEq, Repr

structure Glob where
  tokens : List Glob.Token
  deriving DecidableEq, Repr

namespace Glob

inductive Fault where
  | threeStars
  | partialComponent
  | openBracket
  deriving DecidableEq, Repr

structure Error where
  position : Nat
  fault : Fault
  deriving DecidableEq, Repr

namespace Error

def faultText : Fault → String
  | .threeStars => "wildcards are either regular `*` or recursive `**`"
  | .partialComponent => "recursive wildcards must form a single path component"
  | .openBracket => "invalid range pattern"

def message (e : Error) : String :=
  s!"Pattern syntax error near position {e.position}: {faultText e.fault}"

end Error

def CharClass.parse : List Char → List CharClass
  | lo :: '-' :: hi :: rest => .range lo hi :: parse rest
  | c :: rest => .single c :: parse rest
  | [] => []

def CharClass.contains (c : Char) : CharClass → Bool
  | .single d => c == d
  | .range lo hi => lo ≤ c && c ≤ hi

inductive Reading where
  -- Outside of brackets, after the character `before`.
  | plain (before : Option Char)
  -- After the opening bracket at `position`, and a `!` if `negated`.
  | bracket (position : Nat) (negated : Bool) (content : List Char)

def addComponents : List Token → List Token
  | .anyComponents :: t :: ts => .anyComponents :: t :: ts
  | ts => .anyComponents :: ts

def parseFrom (position : Nat) (reading : Reading) (acc : List Token) :
    List Char → Except Error (List Token)
  | [] =>
    match reading with
    | .plain _ => .ok acc.reverse
    | .bracket start _ _ => .error ⟨start, .openBracket⟩
  | c :: rest =>
    match reading with
    | .bracket start negated content =>
      if c == ']' && !content.isEmpty then
        let classes := CharClass.parse content
        let token := if negated then Token.except classes else .within classes
        parseFrom (position + 1) (.plain (some c)) (token :: acc) rest
      else
        parseFrom (position + 1) (.bracket start negated (content ++ [c])) acc rest
    | .plain before =>
      match c, rest with
      | '*', '*' :: '*' :: _ => .error ⟨position + 2, .threeStars⟩
      | '*', '*' :: after =>
        if before.any (· != '/') then
          .error ⟨position - 1, .partialComponent⟩
        else
          match after with
          | [] => .ok (addComponents acc).reverse
          | '/' :: after =>
            parseFrom (position + 3) (.plain (some '/')) (addComponents acc) after
          | _ => .error ⟨position + 2, .partialComponent⟩
      | '*', after => parseFrom (position + 1) (.plain (some c)) (.anySequence :: acc) after
      | '?', after => parseFrom (position + 1) (.plain (some c)) (.anyChar :: acc) after
      | '[', '!' :: after => parseFrom (position + 2) (.bracket position true []) acc after
      | '[', after => parseFrom (position + 1) (.bracket position false []) acc after
      | c, after => parseFrom (position + 1) (.plain (some c)) (.char c :: acc) after

def parse (text : String) : Except Error Glob :=
  (parseFrom 0 (.plain none) [] text.toList).map Glob.mk

def Token.acceptsChar (c : Char) : Token → Bool
  | .char d => c == d
  | .anyChar => true
  | .within classes => classes.any (CharClass.contains c)
  | .except classes => !classes.any (CharClass.contains c)
  | .anySequence | .anyComponents => false

def afterSlashes : List Char → List (List Char)
  | [] => [[]]
  | c :: cs => if c == '/' then cs :: afterSlashes cs else afterSlashes cs

def matchTokens : List Token → List Char → Bool
  | [], cs => cs.isEmpty
  | .anySequence :: ts, cs => (Text.suffixes cs).any fun rest => matchTokens ts rest
  -- the rest starts here or after a slash, or is empty, so whole components are taken
  | .anyComponents :: ts, cs => (cs :: afterSlashes cs).any fun rest => matchTokens ts rest
  | _ :: _, [] => false
  | t :: ts, c :: cs => t.acceptsChar c && matchTokens ts cs

def accepts (g : Glob) (name : String) : Bool :=
  matchTokens g.tokens name.toList

end Glob

end PatternLint
