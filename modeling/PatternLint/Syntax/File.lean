import PatternLint.Syntax.Lexer
import PatternLint.Syntax.Grammar.Nested

/-!
This module reads texts into syntax trees: whole source files, the bodies of macro calls in them, and
single paths.
-/

namespace PatternLint.Syntax

open Syntax.Parser

def tokensOfText (text : PlacedText) : Except SyntaxError (List TokenTree) :=
  match TokenTree.ofText text with
  | .error l => .error ⟨l, .unreadable⟩
  | .ok trees => .ok trees

def parseTokens {n : Nat} {α : Type} (p : Grammar.Nested n → Parser n α) (trees : List TokenTree)
    (closing : Location) (h : TokenTree.listSize trees ≤ n) : Except SyntaxError α :=
  runAll (p (Grammar.Nested.ofTokens trees)) trees closing h

def startsWithInterpreter (t : PlacedText) : Bool :=
  match PlacedText.dropLexeme? ['#', '!'] t with
  | none => false
  -- with an opening bracket after it, this is an attribute of the file
  | some rest => !PlacedText.nextIs (· == '[') (Lexeme.dropGap rest.length rest)

def dropInterpreter (t : PlacedText) : PlacedText :=
  if startsWithInterpreter t then t.dropWhile (·.char != '\n') else t

structure SourceTree where
  bound : Nat
  tree : Tree bound
  deriving Inhabited

namespace Tree

def fileGrammar {n : Nat} (g : Grammar.Nested n) : Parser n (Tree n) := do
  let attributes ← Grammar.innerAttributes g
  return ofChildren (attributes ++ (← Grammar.members g g.item))

def ofSource (source : String) : Except SyntaxError SourceTree := do
  let text := match source.toList with
    | c :: cs => if c == byteOrderMark then cs else c :: cs
    | [] => []
  let trees ← tokensOfText (dropInterpreter (PlacedText.ofChars text .start))
  return ⟨_, ← parseTokens fileGrammar trees .start (Nat.le_refl _)⟩

end Tree

def MacroBody.arguments? {n : Nat} (body : MacroBody (n + 1)) : Option (List (Tree n)) :=
  (parseTokens Grammar.exprs body.tokens body.closing (Nat.le_of_lt_succ body.small)).toOption

def pathOfText (text : String) : Except SyntaxError String := do
  let trees ← tokensOfText (PlacedText.ofChars text.toList .start)
  let path ← parseTokens (fun g => Grammar.simplePath g false) trees .start (Nat.le_refl _)
  return pathText path.segments

end PatternLint.Syntax
