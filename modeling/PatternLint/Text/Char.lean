import PatternLint.Text.IdentifierRanges

/-!
This module contains the character classes that the readers of this library share: white space as
Unicode defines it, and the letters that identifiers are made of.
-/

namespace PatternLint.Text

def isBlank (c : Char) : Bool :=
  let n := c.toNat
  (0x9 ≤ n && n ≤ 0xd) || n == 0x20 || n == 0x85 || n == 0xa0 || n == 0x1680 ||
    (0x2000 ≤ n && n ≤ 0x200a) || n == 0x2028 || n == 0x2029 || n == 0x202f || n == 0x205f ||
    n == 0x3000

def inRanges (ranges : Array (Nat × Nat)) (n : Nat) : Bool :=
  ranges.any fun (lo, hi) => lo ≤ n && n ≤ hi

def isIdentifierStart (c : Char) : Bool :=
  if c.toNat < 0x80 then
    c.isAlpha || c == '_'
  else
    inRanges identifierStartRanges c.toNat

def isIdentifierPart (c : Char) : Bool :=
  if c.toNat < 0x80 then
    c.isAlphanum || c == '_'
  else
    inRanges identifierStartRanges c.toNat || inRanges identifierTailRanges c.toNat

def isHexDigit (c : Char) : Bool :=
  c.isDigit || ('a' ≤ c && c ≤ 'f') || ('A' ≤ c && c ≤ 'F')

def hexDigitValue (c : Char) : Nat :=
  if c.isDigit then
    c.toNat - '0'.toNat
  else if 'a' ≤ c && c ≤ 'f' then
    c.toNat - 'a'.toNat + 10
  else if 'A' ≤ c && c ≤ 'F' then
    c.toNat - 'A'.toNat + 10
  else
    0

end PatternLint.Text
