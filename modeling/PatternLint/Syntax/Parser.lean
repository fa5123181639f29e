import PatternLint.Syntax.Error
import PatternLint.Syntax.Tree

/-!
This module contains the parsers over token trees and their primitives: looking ahead, taking one
token or one bracketed group, and failing at the place reached.
-/

namespace PatternLint.Syntax

structure Input (n : Nat) where
  trees : List TokenTree
  bounded : TokenTree.listSize trees ≤ n
  -- Where the brackets close; the start of the file for the file itself.
  closing : Location
  /--
  The first token that was left over in a group parsed so far, and the brackets around it. Such a
  token refuses the file only after everything else has been accepted.
  -/
  surplus : Option (Location × Delimiter)

namespace Input

variable {n : Nat}

def drop (count : Nat) (input : Input n) : Input n :=
  { input with
    trees := input.trees.drop count
    bounded := Nat.le_trans (TokenTree.listSize_drop_le ..) input.bounded }

theorem content_lt {input : Input n} {delimiter : Delimiter} {opening closing : Location}
    {content rest : List TokenTree}
    (h : input.trees = .group delimiter opening closing content :: rest)
    : TokenTree.listSize content < n := by
  have := input.bounded
  rw [h, TokenTree.listSize, TokenTree.size] at this
  omega

end Input

abbrev Parser (n : Nat) (α : Type) :=
  StateT (Input n) (Except SyntaxError) α

abbrev Peek :=
  List TokenTree → Bool

namespace Peek

def word : Peek
  | .ident .. :: _ => true
  | _ => false

def keyword (text : String) : Peek
  | .ident name _ :: _ => name == text
  | _ => false

def reservedWords : List String :=
  ["_", "abstract", "as", "async", "await", "become", "box", "break", "const", "continue", "crate",
    "do", "dyn", "else", "enum", "extern", "false", "final", "fn", "for", "if", "impl", "in", "let",
    "loop", "macro", "match", "mod", "move", "mut", "override", "priv", "pub", "ref", "return",
    "Self", "self", "static", "struct", "super", "trait", "true", "try", "type", "typeof", "unsafe",
    "unsized", "use", "virtual", "where", "while", "yield"]

def ident : Peek
  | .ident name _ :: _ => !reservedWords.contains name
  | _ => false

def punct (text : String) : Peek :=
  go text.toList
where
  go : List Char → Peek
    | [], _ => true
    | [c], .punct d _ _ :: _ => c == d
    | c :: cs, .punct d joint _ :: rest => c == d && joint && go cs rest
    | _, _ => false

def lifetime : Peek
  | .lifetime .. :: _ => true
  | _ => false

def literal : Peek
  | .literal .. :: _ => true
  | .ident name _ :: _ => name == "true" || name == "false"
  | .punct '-' _ _ :: .literal (.integer _) _ :: _ => true
  | .punct '-' _ _ :: .literal (.float _) _ :: _ => true
  | _ => false

def string : Peek
  | .literal .string _ :: _ => true
  | _ => false

def group (delimiter : Delimiter) : Peek
  | .group d _ _ _ :: _ => d == delimiter
  | _ => false

def and (p q : Peek) : Peek :=
  fun trees => p trees && q trees

def any (ps : List Peek) : Peek :=
  fun trees => ps.any fun p => p trees

def not (p : Peek) : Peek :=
  fun trees => !p trees

def second (p : Peek) : Peek
  | [] => false
  | _ :: trees => p trees

def third (p : Peek) : Peek
  | _ :: _ :: trees => p trees
  | _ => false

end Peek

namespace Parser

variable {n : Nat}

def peek (p : Peek) : Parser n Bool :=
  fun input => .ok (p input.trees, input)

def ahead : Parser n (List TokenTree) :=
  fun input => .ok (input.trees, input)

def isEmpty : Parser n Bool :=
  fun input => .ok (input.trees.isEmpty, input)

def location : Parser n Location :=
  fun input => .ok ((input.trees.head?.map TokenTree.location).getD input.closing, input)

def failAt {α : Type} (location : Location) (cause : SyntaxError.Cause) : Parser n α :=
  fun _ => .error ⟨location, cause⟩

def failHere {α : Type} (before atEnd : SyntaxError.Cause) : Parser n α :=
  fun input =>
    match input.trees with
    | [] => .error ⟨input.closing, atEnd⟩
    | tree :: _ => .error ⟨tree.location, before⟩

def failExpected {α : Type} (names : List String) : Parser n α :=
  failHere (.expected names) (.endedBefore names)

def failRule {α : Type} (text : String) : Parser n α :=
  failHere (.rule text) (.ruleAtEnd text)

def failTooDeep {α : Type} : Parser n α :=
  failHere .tooDeep .tooDeep

def skip (count : Nat) : Parser n Unit :=
  fun input => .ok ((), input.drop count)

def quote (text : String) : String :=
  "`" ++ text ++ "`"

def punct? (text : String) : Parser n Bool :=
  fun input =>
    if Peek.punct text input.trees then
      .ok (true, input.drop text.length)
    else
      .ok (false, input)

def punct (text : String) : Parser n Unit := do
  unless ← punct? text do failExpected [quote text]

def keyword? (text : String) : Parser n Bool :=
  fun input =>
    if Peek.keyword text input.trees then
      .ok (true, input.drop 1)
    else
      .ok (false, input)

def keyword (text : String) : Parser n Unit := do
  unless ← keyword? text do failExpected [quote text]

def anyIdent : Parser n (String × Location) := do
  match (← get).trees with
  | .ident name l :: _ =>
    skip 1
    return (name, l)
  | _ => failExpected ["ident"]

def ident : Parser n (String × Location) := do
  match (← get).trees with
  | .ident name l :: rest =>
    if Peek.ident (.ident name l :: rest) then
      skip 1
      return (name, l)
    else
      failAt l (.rule s!"expected identifier, found keyword {quote name}")
  | _ => failExpected ["identifier"]

def lifetime? : Parser n Bool := do
  if ← peek Peek.lifetime then
    skip 1
    return true
  else
    return false

def lifetime : Parser n Unit := do
  unless ← lifetime? do failExpected ["lifetime"]

def literal : Parser n Unit := do
  match (← get).trees with
  | .literal .. :: _ => skip 1
  | .ident .. :: _ => if ← peek Peek.literal then skip 1 else failExpected ["literal"]
  | _ => if ← peek Peek.literal then skip 2 else failExpected ["literal"]

def delimiterName : Delimiter → String
  | .parenthesis => "parentheses"
  | .brace => "curly braces"
  | .bracket => "square brackets"

def delimited {α : Type} (delimiter : Delimiter) (p : Parser n α) : Parser n α :=
  fun input =>
    match h : input.trees with
    | .group d opening closing content :: _ =>
      if d = delimiter then
        match p ⟨content, Nat.le_of_lt (input.content_lt h), closing, input.surplus⟩ with
        | .error e => .error e
        | .ok (a, inner) =>
          -- a token that is left over is noted, and parsing goes on after the group
          let surplus :=
            match inner.surplus, inner.trees with
            | some s, _ => some s
            | none, [] => none
            | none, tree :: _ => some (tree.location, delimiter)
          .ok (a, { input.drop 1 with surplus })
      else
        .error ⟨opening, .expected [delimiterName delimiter]⟩
    | _ => failExpected [delimiterName delimiter] input

def anyGroup? : Parser n (Option (Delimiter × MacroBody n)) :=
  fun input =>
    match h : input.trees with
    | .group delimiter _ closing content :: _ =>
      .ok (some (delimiter, ⟨content, closing, input.content_lt h⟩), input.drop 1)
    | _ => .ok (none, input)

def anyTokens : Parser n Unit :=
  fun input => .ok ((), input.drop input.trees.length)

def optional? {α : Type} (p : Parser n α) : Parser n (Option α) :=
  fun input =>
    match p input with
    | .ok (a, rest) => .ok (some a, rest)
    | .error _ => .ok (none, input)

def accepts {α : Type} (p : Parser n α) : Parser n Bool :=
  fun input =>
    match p input with
    | .ok _ => .ok (true, input)
    | .error _ => .ok (false, input)

inductive Step (σ α : Type) where
  | next (state : σ)
  | done (result : α)

def loop {σ α : Type} (bound : Nat) (step : σ → Parser n (Step σ α)) (state : σ) : Parser n α :=
  match bound with
  | 0 => failTooDeep
  | bound + 1 => do
    match ← step state with
    | .next state => loop bound step state
    | .done a => return a

def runAll {α : Type} (p : Parser n α) (trees : List TokenTree) (closing : Location)
    (h : TokenTree.listSize trees ≤ n) : Except SyntaxError α :=
  match p ⟨trees, h, closing, none⟩ with
  | .error e => .error e
  | .ok (a, rest) =>
    match rest.surplus, rest.trees with
    | some (l, delimiter), _ => .error ⟨l, .surplus (some delimiter)⟩
    | none, [] => .ok a
    | none, tree :: _ => .error ⟨tree.location, .surplus none⟩

end Parser

end PatternLint.Syntax
