import PatternLint.Syntax.Token
import PatternLint.Text.Char

/-!
This module contains the recognizers of single lexemes. Each takes a text whose characters carry
their places and returns what is left after the lexeme, or `none` if the text does not start
with one.
-/

namespace PatternLint.Syntax

structure PlacedChar where
  char : Char
  location : Location

abbrev PlacedText :=
  List PlacedChar

namespace PlacedText

def ofChars (cs : List Char) (location : Location) : PlacedText :=
  go cs location []
where
  go : List Char → Location → PlacedText → PlacedText
    | [], _, acc => acc.reverse
    | c :: cs, l, acc => go cs (l.after c) (⟨c, l⟩ :: acc)

def dropLexeme? : (lexeme : List Char) → (t : PlacedText) → Option PlacedText
  | [], t => some t
  | _ :: _, [] => none
  | c :: cs, x :: t => if x.char == c then dropLexeme? cs t else none

def startsWith (lexeme : String) (t : PlacedText) : Bool :=
  (dropLexeme? lexeme.toList t).isSome

def nextIs (p : Char → Bool) : PlacedText → Bool
  | [] => false
  | x :: _ => p x.char

def spanChars (p : Char → Bool) (t : PlacedText) : List Char × PlacedText :=
  go t []
where
  go : PlacedText → List Char → List Char × PlacedText
    | [], acc => (acc.reverse, [])
    | x :: t, acc => if p x.char then go t (x.char :: acc) else (acc.reverse, x :: t)

end PlacedText

namespace Lexeme

open PlacedText
open Text (isIdentifierStart isIdentifierPart isHexDigit hexDigitValue)

def word? (t : PlacedText) : Option (String × PlacedText) :=
  if nextIs isIdentifierStart t then
    let (cs, rest) := spanChars isIdentifierPart t
    some (String.ofList cs, rest)
  else
    none

def unrawWords : List String :=
  ["_", "super", "self", "Self", "crate"]

def identifier? (t : PlacedText) : Option (String × PlacedText) :=
  match dropLexeme? ['r', '#'] t with
  | none => word? t
  | some rest =>
    match word? rest with
    | none => none
    | some (name, rest) => if unrawWords.contains name then none else some ("r#" ++ name, rest)

def dropSuffix (t : PlacedText) : PlacedText :=
  match word? t with
  | some (_, rest) => rest
  | none => t

structure QuotedRules where
  asciiOnly : Bool
  noNul : Bool
  -- Escapes name bytes, so `\x` reaches to `ff` and `\u` is not known.
  byteEscapes : Bool

namespace QuotedRules

def string : QuotedRules :=
  ⟨false, false, false⟩

def byteString : QuotedRules :=
  ⟨true, false, true⟩

def cString : QuotedRules :=
  ⟨false, true, false⟩

def admits (rules : QuotedRules) (c : Char) : Bool :=
  !(rules.asciiOnly && 0x80 ≤ c.toNat) && !(rules.noNul && c == '\x00')

end QuotedRules

def hexEscape? (rules : QuotedRules) : PlacedText → Option PlacedText
  | ⟨a, _⟩ :: ⟨b, _⟩ :: rest =>
    if !isHexDigit a || !isHexDigit b then
      none
    else if rules.noNul then
      if a == '0' && b == '0' then none else some rest
    else if rules.byteEscapes || hexDigitValue a < 8 then
      some rest
    else
      none
  | _ => none

def unicodeEscape? (rules : QuotedRules) : PlacedText → Option PlacedText
  | ⟨'{', _⟩ :: rest => digits rest 0 0
  | _ => none
where
  -- Go on after `count` digits with the value `value`.
  digits : PlacedText → (value count : Nat) → Option PlacedText
    | [], _, _ => none
    | ⟨c, _⟩ :: rest, value, count =>
      if isHexDigit c then
        if count == 6 then none else digits rest (value * 16 + hexDigitValue c) (count + 1)
      else if count == 0 then
        none
      else if c == '_' then
        digits rest value count
      else if c == '}' then
        if value.isValidChar && !(rules.noNul && value == 0) then some rest else none
      else
        none

def escape? (rules : QuotedRules) : PlacedText → Option PlacedText
  | ⟨'x', _⟩ :: rest => hexEscape? rules rest
  | ⟨'u', _⟩ :: rest => if rules.byteEscapes then none else unicodeEscape? rules rest
  | ⟨'0', _⟩ :: rest => if rules.noNul then none else some rest
  | ⟨c, _⟩ :: rest => if ['n', 'r', 't', '\\', '\'', '"'].contains c then some rest else none
  | [] => none

def dropContinuation? : PlacedText → Option PlacedText
  | [] => none
  | ⟨'\r', _⟩ :: ⟨'\n', _⟩ :: rest => dropContinuation? rest
  | ⟨c, l⟩ :: rest =>
    -- a carriage return without a line feed
    if c == '\r' then
      none
    else if c == ' ' || c == '\t' || c == '\n' then
      dropContinuation? rest
    else
      some (⟨c, l⟩ :: rest)

def quoted? (rules : QuotedRules) (t : PlacedText) : Option PlacedText :=
  go t.length t
where
  go : Nat → PlacedText → Option PlacedText
    | 0, _ => none
    | _, [] => none
    | _ + 1, ⟨'"', _⟩ :: rest => some (dropSuffix rest)
    | n + 1, ⟨'\r', _⟩ :: rest =>
      match rest with
      | ⟨'\n', _⟩ :: rest => go n rest
      | _ => none
    | n + 1, ⟨'\\', _⟩ :: rest =>
      if nextIs (fun c => c == '\n' || c == '\r') rest then
        (dropContinuation? rest).bind (go n)
      else
        (escape? rules rest).bind (go n)
    | n + 1, ⟨c, _⟩ :: rest => if rules.admits c then go n rest else none

def rawQuoted? (rules : QuotedRules) (t : PlacedText) : Option PlacedText :=
  let (hashes, rest) := spanChars (· == '#') t
  match rest with
  | ⟨'"', _⟩ :: rest => if hashes.length > 255 then none else body hashes rest
  | _ => none
where
  -- Read up to a quote that is followed by the opening number of `#`.
  body (hashes : List Char) : PlacedText → Option PlacedText
    | [] => none
    | ⟨c, _⟩ :: rest =>
      if c == '"' then
        match dropLexeme? hashes rest with
        | some rest => some (dropSuffix rest)
        | none => body hashes rest
      else if c == '\r' then
        if nextIs (· == '\n') rest then body hashes rest else none
      else if rules.admits c then
        body hashes rest
      else
        none

def singleQuoted? (rules : QuotedRules) : PlacedText → Option PlacedText
  | ⟨'\\', _⟩ :: rest => (escape? rules rest).bind close?
  | ⟨c, _⟩ :: rest => if rules.admits c then close? rest else none
  | [] => none
where
  close? : PlacedText → Option PlacedText
    | ⟨'\'', _⟩ :: rest => some (dropSuffix rest)
    | _ => none

def textLiteral? (t : PlacedText) : Option (Literal × PlacedText) :=
  match t with
  | ⟨'"', _⟩ :: rest => (quoted? .string rest).map (.string, ·)
  | ⟨'r', _⟩ :: rest => (rawQuoted? .string rest).map (.string, ·)
  | ⟨'b', _⟩ :: ⟨'"', _⟩ :: rest => (quoted? .byteString rest).map (.byteString, ·)
  | ⟨'b', _⟩ :: ⟨'r', _⟩ :: rest => (rawQuoted? .byteString rest).map (.byteString, ·)
  | ⟨'c', _⟩ :: ⟨'"', _⟩ :: rest => (quoted? .cString rest).map (.cString, ·)
  | ⟨'c', _⟩ :: ⟨'r', _⟩ :: rest => (rawQuoted? .cString rest).map (.cString, ·)
  | ⟨'b', _⟩ :: ⟨'\'', _⟩ :: rest => (singleQuoted? .byteString rest).map (.byte, ·)
  | ⟨'\'', _⟩ :: rest => (singleQuoted? .string rest).map (.char, ·)
  | _ => none

def isDecimalPart (c : Char) : Bool :=
  c.isDigit || c == '_'

def isExponentMark (c : Char) : Bool :=
  c == 'e' || c == 'E'

def numberSuffix? (t : PlacedText) : Option (List Char × PlacedText) :=
  let (suffix, rest) :=
    if nextIs isIdentifierStart t then spanChars isIdentifierPart t else ([], t)
  if nextIs isIdentifierPart rest then none else some (suffix, rest)

def exponentSign : PlacedText → List Char × PlacedText
  | [] => ([], [])
  | x :: rest => if x.char == '+' || x.char == '-' then ([x.char], rest) else ([], x :: rest)

def exponent? : PlacedText → Option (List Char × PlacedText)
  | [] => none
  | mark :: rest =>
    let (before, rest) := spanChars (· == '_') rest
    let (sign, rest) := exponentSign rest
    let (digits, rest) := spanChars isDecimalPart rest
    if digits.any Char.isDigit then
      some (mark.char :: before ++ sign ++ digits, rest)
    else
      none

def floatDigits? (t : PlacedText) : Option (List Char × PlacedText) :=
  let (whole, rest) := spanChars isDecimalPart t
  match rest with
  | [] => none
  | x :: rest =>
    if x.char == '.' then
      -- the dots of a range or the dot of a member access, after an integer
      if nextIs (fun c => c == '.' || isIdentifierStart c) rest then
        none
      else
        let (fraction, rest) := spanChars isDecimalPart rest
        let mantissa := whole ++ '.' :: fraction
        if nextIs isExponentMark rest then
          match exponent? rest with
          | some (exponent, rest) => some (mantissa ++ exponent, rest)
          | none => some (mantissa, rest)
        else
          some (mantissa, rest)
    else if isExponentMark x.char then
      (exponent? (x :: rest)).map fun (exponent, rest) => (whole ++ exponent, rest)
    else
      none

def numberBase (t : PlacedText) : Nat × List Char × PlacedText :=
  match t with
  | ⟨'0', _⟩ :: ⟨'x', _⟩ :: rest => (16, ['0', 'x'], rest)
  | ⟨'0', _⟩ :: ⟨'o', _⟩ :: rest => (8, ['0', 'o'], rest)
  | ⟨'0', _⟩ :: ⟨'b', _⟩ :: rest => (2, ['0', 'b'], rest)
  | _ => (10, [], t)

def integerDigits? (t : PlacedText) : Option (List Char × PlacedText) :=
  let (base, marker, rest) := numberBase t
  let (digits, rest) := spanChars (fun c => isDecimalPart c || base == 16 && isHexDigit c) rest
  let outOfBase := digits.any fun c => c.isDigit && base ≤ hexDigitValue c
  if digits.all (· == '_') || outOfBase then none else some (marker ++ digits, rest)

def number? (t : PlacedText) : Option (Literal × PlacedText) :=
  if nextIs Char.isDigit t then
    read floatDigits? .float <|> read integerDigits? .integer
  else
    none
where
  -- Read the digits with `digits?`, then a suffix.
  read (digits? : PlacedText → Option (List Char × PlacedText)) (literal : String → Literal) :
      Option (Literal × PlacedText) :=
    match digits? t with
    | none => none
    | some (digits, rest) =>
      match numberSuffix? rest with
      | none => none
      | some (suffix, rest) => some (literal (String.ofList (digits ++ suffix)), rest)

def literal? (t : PlacedText) : Option (Literal × PlacedText) :=
  textLiteral? t <|> number? t

def startsTextLiteral (t : PlacedText) : Bool :=
  ["r\"", "r#\"", "r##", "b\"", "b'", "br\"", "br#", "c\"", "cr\"", "cr#"].any (startsWith · t)

def startsComment (t : PlacedText) : Bool :=
  startsWith "//" t || startsWith "/*" t

def punctChar? : PlacedText → Option (Char × PlacedText)
  | [] => none
  | x :: rest =>
    if "~!@#$%^&*-=+|;:,<.>/?'".toList.contains x.char && !startsComment (x :: rest) then
      some (x.char, rest)
    else
      none

def untilLineBreak (t : PlacedText) : List Char × PlacedText :=
  go t []
where
  go : PlacedText → List Char → List Char × PlacedText
    | [], acc => (acc.reverse, [])
    | ⟨'\r', _⟩ :: ⟨'\n', l⟩ :: rest, acc => (acc.reverse, ⟨'\n', l⟩ :: rest)
    | x :: rest, acc => if x.char == '\n' then (acc.reverse, x :: rest) else go rest (x.char :: acc)

def blockComment? (t : PlacedText) : Option (List Char × PlacedText) :=
  go t 0 []
where
  -- comments nest, and `depth` of them are open
  go : PlacedText → (depth : Nat) → List Char → Option (List Char × PlacedText)
    | ⟨'/', _⟩ :: ⟨'*', _⟩ :: rest, depth, acc => go rest (depth + 1) ('*' :: '/' :: acc)
    | ⟨'*', _⟩ :: ⟨'/', _⟩ :: rest, depth, acc =>
      if depth ≤ 1 then
        some (('/' :: '*' :: acc).reverse, rest)
      else
        go rest (depth - 1) ('/' :: '*' :: acc)
    | x :: rest, depth, acc => go rest depth (x.char :: acc)
    | [], _, _ => none

def startsPlainLineComment (t : PlacedText) : Bool :=
  startsWith "//" t && (!startsWith "///" t || startsWith "////" t) && !startsWith "//!" t

def startsPlainBlockComment (t : PlacedText) : Bool :=
  startsWith "/*" t && (!startsWith "/**" t || startsWith "/***" t) && !startsWith "/*!" t

def isGap (c : Char) : Bool :=
  Text.isBlank c || c == '\u200e' || c == '\u200f'

def dropGap (fuel : Nat) (t : PlacedText) : PlacedText :=
  match fuel, t with
  | 0, t => t
  | _, [] => []
  | fuel + 1, x :: rest =>
    if startsPlainLineComment (x :: rest) then
      dropGap fuel (untilLineBreak (x :: rest)).2
    else if startsWith "/**/" (x :: rest) then
      dropGap fuel (rest.drop 3)
    else if startsPlainBlockComment (x :: rest) then
      match blockComment? (x :: rest) with
      | some (_, rest) => dropGap fuel rest
      | none => x :: rest
    else if isGap x.char then
      dropGap fuel rest
    else
      x :: rest

structure DocComment where
  text : List Char
  -- Written with `!`: it documents the item around it.
  inner : Bool

def noBareReturn : List Char → Bool
  | [] => true
  | '\r' :: '\n' :: rest => noBareReturn rest
  | c :: rest => c != '\r' && noBareReturn rest

def docComment? (t : PlacedText) : Option (DocComment × PlacedText) :=
  match read with
  | some (doc, rest) => if noBareReturn doc.text then some (doc, rest) else none
  | none => none
where
  inside (comment : List Char) : List Char :=
    (comment.drop 3).take (comment.length - 5)
  read : Option (DocComment × PlacedText) :=
    if startsWith "//!" t then
      let (text, rest) := untilLineBreak (t.drop 3)
      some (⟨text, true⟩, rest)
    else if startsWith "/*!" t then
      (blockComment? t).map fun (text, rest) => (⟨inside text, true⟩, rest)
    else if startsWith "///" t then
      if startsWith "////" t then
        none
      else
        let (text, rest) := untilLineBreak (t.drop 3)
        some (⟨text, false⟩, rest)
    else if startsWith "/**" t && !startsWith "/***" t then
      (blockComment? t).map fun (text, rest) => (⟨inside text, false⟩, rest)
    else
      none

end Lexeme

end PatternLint.Syntax
