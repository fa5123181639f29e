import PatternLint.Syntax.Lexeme

/-!
This module contains the lexer: it reads a text into token trees, or says where it cannot.
-/

namespace PatternLint.Syntax

inductive FlatToken where
  | opening (delimiter : Delimiter) (location : Location)
  | closing (delimiter : Delimiter) (location : Location)
  | leaf (tree : TokenTree)

namespace FlatToken

open PlacedText

def opens? : Char → Option Delimiter
  | '(' => some .parenthesis
  | '{' => some .brace
  | '[' => some .bracket
  | _ => none

def closes? : Char → Option Delimiter
  | ')' => some .parenthesis
  | '}' => some .brace
  | ']' => some .bracket
  | _ => none

def ofDocComment (doc : Lexeme.DocComment) (l : Location) : List FlatToken :=
  let mark (c : Char) : FlatToken := .leaf (.punct c false l)
  let content : FlatToken :=
    .leaf (.group .bracket l l [.ident "doc" l, .punct '=' false l, .literal .string l])
  if doc.inner then [mark '#', mark '!', content] else [mark '#', content]

def apostrophe? (l : Location) (rest : PlacedText) : Option (FlatToken × PlacedText) :=
  match Lexeme.identifier? rest with
  | none => none
  | some (name, after) =>
    if nextIs (· == '\'') after || nextIs (· == '#') after && !startsWith "r#" rest then
      none
    else if (Lexeme.literal? rest).isSome || Lexeme.startsTextLiteral rest then
      -- what follows belongs to another literal
      some (.leaf (.punct '\'' true l), rest)
    else
      some (.leaf (.lifetime name l), after)

def leaf? (l : Location) (t : PlacedText) : Option (FlatToken × PlacedText) :=
  match Lexeme.literal? t with
  | some (literal, rest) => some (.leaf (.literal literal l), rest)
  | none =>
    match Lexeme.punctChar? t with
    | some ('\'', rest) => apostrophe? l rest
    | some (c, rest) => some (.leaf (.punct c (Lexeme.punctChar? rest).isSome l), rest)
    | none =>
      if Lexeme.startsTextLiteral t then
        none
      else
        (Lexeme.identifier? t).map fun (name, rest) => (.leaf (.ident name l), rest)

def read? (x : PlacedChar) (rest : PlacedText) : Option (List FlatToken × PlacedText) :=
  match Lexeme.docComment? (x :: rest) with
  | some (doc, rest) => some (ofDocComment doc x.location, rest)
  | none =>
    match opens? x.char, closes? x.char with
    | some delimiter, _ => some ([.opening delimiter x.location], rest)
    | none, some delimiter => some ([.closing delimiter x.location], rest)
    | none, none => (leaf? x.location (x :: rest)).map fun (token, rest) => ([token], rest)

end FlatToken

structure Scan where
  tokens : List FlatToken
  stuckAt : Option Location

namespace Scan

def ofText (t : PlacedText) : Scan :=
  go t.length t []
where
  go : Nat → PlacedText → List FlatToken → Scan
    | 0, _, acc => ⟨acc.reverse, none⟩
    | n + 1, t, acc =>
      match Lexeme.dropGap (n + 1) t with
      | [] => ⟨acc.reverse, none⟩
      | x :: rest =>
        match FlatToken.read? x rest with
        | some (tokens, rest) => go n rest (tokens.reverse ++ acc)
        | none => ⟨acc.reverse, some x.location⟩

structure Frame where
  delimiter : Delimiter
  opening : Location
  before : List TokenTree

def trees (scan : Scan) : Except Location (List TokenTree) :=
  go scan.tokens [] []
where
  -- Go on inside the brackets `frames` after the trees `acc`, the last one first.
  go : List FlatToken → (frames : List Frame) → (acc : List TokenTree) →
      Except Location (List TokenTree)
    | [], frames, acc =>
      match scan.stuckAt, frames with
      | some l, _ => .error l
      | none, [] => .ok acc.reverse
      | none, frame :: _ => .error frame.opening
    | .leaf tree :: rest, frames, acc => go rest frames (tree :: acc)
    | .opening delimiter l :: rest, frames, acc => go rest (⟨delimiter, l, acc⟩ :: frames) []
    | .closing _ l :: _, [], _ => .error l
    | .closing delimiter l :: rest, frame :: frames, acc =>
      if frame.delimiter = delimiter then
        go rest frames (.group delimiter frame.opening l acc.reverse :: frame.before)
      else
        .error l

end Scan

def byteOrderMark : Char :=
  '\ufeff'

def TokenTree.ofText (t : PlacedText) : Except Location (List TokenTree) :=
  (Scan.ofText ((PlacedText.dropLexeme? [byteOrderMark] t).getD t)).trees

end PatternLint.Syntax
