import PatternLint.Toml.Text
import PatternLint.Toml.Value

/-!
This module reads the numbers in TOML documents. Digits may have single underscores between them,
integers have 64 bits and no zeros at the front, and floats are rounded to the nearest number of the
format binary64.
-/

namespace PatternLint.Toml

def readMoreDigits (isDigit : Char → Bool) : Reader (List Char)
  -- an underscore stands between two digits
  | '_' :: c :: cs =>
    if isDigit c then
      (readMoreDigits isDigit cs).map fun (ds, rest) => (c :: ds, rest)
    else
      none
  | c :: cs =>
    if isDigit c then
      (readMoreDigits isDigit cs).map fun (ds, rest) => (c :: ds, rest)
    else if c == '_' then
      none
    else
      some ([], c :: cs)
  | [] => some ([], [])

def readDigits (isDigit : Char → Bool) : Reader (List Char)
  | c :: cs =>
    if isDigit c then
      (readMoreDigits isDigit cs).map fun (ds, rest) => (c :: ds, rest)
    else
      none
  | [] => none

def valueOfDigits (base : Nat) (ds : List Char) : Nat :=
  ds.foldl (fun n c => base * n + Text.hexDigitValue c) 0

def readSign : List Char → Bool × List Char
  | '-' :: cs => (true, cs)
  | '+' :: cs => (false, cs)
  | cs => (false, cs)

def readWhole : Reader (List Char)
  -- a digit after the zero is left over, and nothing accepts it
  | '0' :: cs => some (['0'], cs)
  | cs => readDigits Char.isDigit cs

def integer? (negative : Bool) (magnitude : Nat) : Option Value :=
  let n : Int := if negative then -magnitude else magnitude
  if Int64.minValue.toInt ≤ n ∧ n ≤ Int64.maxValue.toInt then some (.integer n) else none

def readBased (base : Nat) (isDigit : Char → Bool) : Reader Value := fun cs => do
  let (ds, rest) ← readDigits isDigit cs
  return (← integer? false (valueOfDigits base ds), rest)

def readExponent : Reader (Option Int)
  | c :: cs =>
    if c == 'e' || c == 'E' then do
      let (negative, cs) := readSign cs
      let (ds, rest) ← readDigits Char.isDigit cs
      let n : Int := valueOfDigits 10 ds
      return (some (if negative then -n else n), rest)
    else
      some (none, c :: cs)
  | [] => some (none, [])

def readFraction : Reader (Option (List Char))
  | '.' :: cs => do
    let (ds, rest) ← readDigits Char.isDigit cs
    return (some ds, rest)
  | cs => some (none, cs)

def float? (negative : Bool) (whole fraction : List Char) (exponent : Int) : Option Value :=
  let ds := (whole ++ fraction).map Text.hexDigitValue
  match Binary64.ofDecimal negative ds (exponent - fraction.length) with
  | .infinite false => none
  | x => some (.float x)

def readDecimal (negative : Bool) : Reader Value := fun cs => do
  let (whole, rest) ← readWhole cs
  let (fraction, rest) ← readFraction rest
  let (exponent, rest) ← readExponent rest
  match fraction, exponent with
  | none, none => return (← integer? negative (valueOfDigits 10 whole), rest)
  | _, _ => return (← float? negative whole (fraction.getD []) (exponent.getD 0), rest)

def readMagnitude (negative : Bool) : Reader Value
  | 'i' :: 'n' :: 'f' :: rest => some (.float (.infinite negative), rest)
  | 'n' :: 'a' :: 'n' :: rest => some (.float .nan, rest)
  | cs => readDecimal negative cs

def readNumber : Reader Value
  | '0' :: 'x' :: cs => readBased 16 Text.isHexDigit cs
  | '0' :: 'o' :: cs => readBased 8 (fun c => '0' ≤ c && c ≤ '7') cs
  | '0' :: 'b' :: cs => readBased 2 (fun c => c == '0' || c == '1') cs
  | cs => let (negative, cs) := readSign cs; readMagnitude negative cs

end PatternLint.Toml
