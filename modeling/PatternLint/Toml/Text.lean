import PatternLint.Text.Char

/-!
This module reads the texts in TOML documents. There are four sorts of them: with double quotes and
escapes, with single quotes and without, and both of these over several lines between three quotes.
-/

namespace PatternLint.Toml

abbrev Reader (α : Type) :=
  List Char → Option (α × List Char)

def isPlain (c : Char) : Bool :=
  c == '\t' || (0x20 ≤ c.toNat && c.toNat != 0x7f)

def isLineBlank (c : Char) : Bool :=
  c == ' ' || c == '\t'

inductive Escape where
  | nothing
  | backslash
  | code (missing value : Nat)
  | blanks (broken : Bool)
  deriving DecidableEq, Repr

namespace Escape

def charOfCode? (n : Nat) : Option Char :=
  if n.isValidChar then some (Char.ofNat n) else none

def stepPlain (multiline : Bool) (c : Char) : Option (Escape × List Char) :=
  if c == '\\' then
    some (backslash, [])
  else if isPlain c || (multiline && c == '\n') then
    some (nothing, [c])
  else
    none

def stepBackslash (multiline : Bool) (c : Char) : Option (Escape × List Char) :=
  match c with
  | 'b' => some (nothing, ['\x08'])
  | 't' => some (nothing, ['\t'])
  | 'n' => some (nothing, ['\n'])
  | 'f' => some (nothing, ['\x0c'])
  | 'r' => some (nothing, ['\r'])
  | '"' => some (nothing, ['"'])
  | '\\' => some (nothing, ['\\'])
  | 'u' => some (code 4 0, [])
  | 'U' => some (code 8 0, [])
  | c => if multiline && (isLineBlank c || c == '\n') then some (blanks (c == '\n'), []) else none

def step (multiline : Bool) (e : Escape) (c : Char) : Option (Escape × List Char) :=
  match e with
  | nothing => stepPlain multiline c
  | backslash => stepBackslash multiline c
  | code missing value =>
    if !Text.isHexDigit c then
      none
    else
      let value := 16 * value + Text.hexDigitValue c
      if missing ≤ 1 then
        (charOfCode? value).map fun c => (nothing, [c])
      else
        some (code (missing - 1) value, [])
  | blanks broken =>
    if isLineBlank c || c == '\n' then
      some (blanks (broken || c == '\n'), [])
    else if broken then
      stepPlain multiline c
    else
      none

def isComplete : Escape → Bool
  | nothing | blanks true => true
  | _ => false

end Escape

def unescape (multiline : Bool) : Escape → List Char → Option (List Char)
  | e, [] => if e.isComplete then some [] else none
  | e, c :: cs => do
    let (e, out) ← e.step multiline c
    return out ++ (← unescape multiline e cs)

def joinBreaks : List Char → List Char
  | '\r' :: '\n' :: cs => '\n' :: joinBreaks cs
  | c :: cs => c :: joinBreaks cs
  | [] => []

def dropBreak : List Char → List Char
  | '\n' :: cs => cs
  | cs => cs

def spanQuoted : List Char → Option (List Char × List Char)
  | [] => none
  | '"' :: cs => some ([], cs)
  | '\\' :: c :: cs => (spanQuoted cs).map fun (raw, rest) => ('\\' :: c :: raw, rest)
  | c :: cs => (spanQuoted cs).map fun (raw, rest) => (c :: raw, rest)

def spanTripleQuoted (quote : Char) (escapes : Bool) : List Char → Option (List Char × List Char)
  | [] => none
  | c :: cs =>
    if escapes && c == '\\' then
      match cs with
      | [] => none
      | d :: cs => (spanTripleQuoted quote escapes cs).map fun (raw, rest) => (c :: d :: raw, rest)
    else if (c :: cs).take 3 == [quote, quote, quote] then
      let extra := ((cs.drop 2).take 2).takeWhile (· == quote)
      some (extra, cs.drop (2 + extra.length))
    else
      (spanTripleQuoted quote escapes cs).map fun (raw, rest) => (c :: raw, rest)

def readLineText : Reader String
  | '"' :: cs => do
    let (raw, rest) ← spanQuoted cs
    return (String.ofList (← unescape false .nothing raw), rest)
  | '\'' :: cs =>
    match cs.span (· != '\'') with
    | (raw, _ :: rest) => if raw.all isPlain then some (String.ofList raw, rest) else none
    | (_, []) => none
  | _ => none

def readText : Reader String
  -- a line break right after three quotes does not count
  | '"' :: '"' :: '"' :: cs => do
    let (raw, rest) ← spanTripleQuoted '"' true cs
    return (String.ofList (← unescape true .nothing (dropBreak (joinBreaks raw))), rest)
  | '\'' :: '\'' :: '\'' :: cs => do
    let (raw, rest) ← spanTripleQuoted '\'' false cs
    let text := dropBreak (joinBreaks raw)
    if text.all fun c => isPlain c || c == '\n' then
      return (String.ofList text, rest)
    else
      none
  | cs => readLineText cs

end PatternLint.Toml
