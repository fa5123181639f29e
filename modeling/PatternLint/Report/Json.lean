/-!
This module contains documents in JSON and their printed form: each item and each field on a line
of its own, two spaces further to the right than what it is in. In texts, only quotes, backslashes
and control characters are escaped.
-/

namespace PatternLint.Report

inductive Json where
  | null
  | number (n : Nat)
  | text (s : String)
  | array (items : List Json)
  | object (fields : List (String × Json))
  deriving Inhabited

namespace Json

def numericEscape (n : Nat) : List Char :=
  ['\\', 'u', '0', '0', Nat.digitChar (n / 16), Nat.digitChar (n % 16)]

def escapeChar (c : Char) : List Char :=
  match c with
  | '"' => ['\\', '"']
  | '\\' => ['\\', '\\']
  | '\x08' => ['\\', 'b']
  | '\x0c' => ['\\', 'f']
  | '\n' => ['\\', 'n']
  | '\r' => ['\\', 'r']
  | '\t' => ['\\', 't']
  | c => if c.toNat < 32 then numericEscape c.toNat else [c]

def quote (s : String) : List Char :=
  '"' :: s.toList.flatMap escapeChar ++ ['"']

def indent (depth : Nat) : List Char :=
  List.replicate (2 * depth) ' '

def enclose (depth : Nat) (left right : Char) (lines : List (List Char)) : List Char :=
  if lines.isEmpty then
    [left, right]
  else
    let body := [',', '\n'].intercalate (lines.map fun line => indent (depth + 1) ++ line)
    left :: '\n' :: body ++ '\n' :: indent depth ++ [right]

mutual

def print (depth : Nat) : Json → List Char
  | null => "null".toList
  | number n => (toString n).toList
  | text s => quote s
  | array items => enclose depth '[' ']' (printItems depth items)
  | object fields => enclose depth '\x7b' '\x7d' (printFields depth fields)

def printItems (depth : Nat) : List Json → List (List Char)
  | [] => []
  | item :: items => print (depth + 1) item :: printItems depth items

def printFields (depth : Nat) : List (String × Json) → List (List Char)
  | [] => []
  | (key, value) :: fields =>
    (quote key ++ ':' :: ' ' :: print (depth + 1) value) :: printFields depth fields

end

def render (document : Json) : String :=
  String.ofList (print 0 document)

end Json

end PatternLint.Report
