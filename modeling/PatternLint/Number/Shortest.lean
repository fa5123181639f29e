import PatternLint.Number.Binary64

/-!
This module writes numbers of the format binary64 as decimals with the fewest digits that read back
as the same number. Decimals are written without exponents, and always with a point.
-/

namespace PatternLint.Binary64

structure Interval where
  low : Ratio
  value : Ratio
  high : Ratio
  closed : Bool

def interval (mantissa : Nat) (exponent : Int) : Interval :=
  -- The number below the smallest one of its length is nearer than that above it.
  let isNarrow := mantissa == Nat.pow 2 (mantissaBits - 1) && minExponent < exponent
  let below := if isNarrow then 4 * mantissa - 1 else 4 * mantissa - 2
  let at2 (m : Nat) : Ratio := .scaled m 2 (exponent - 2)
  ⟨at2 below, at2 (4 * mantissa), at2 (4 * mantissa + 2), mantissa % 2 == 0⟩

def Ratio.compare (r s : Ratio) : Ordering :=
  Ord.compare (r.numerator * s.denominator) (s.numerator * r.denominator)

def Interval.holds (i : Interval) (r : Ratio) : Bool :=
  match i.low.compare r, r.compare i.high with
  | .lt, .lt => true
  | .eq, .lt | .lt, .eq => i.closed
  | _, _ => false

def isUpperNearer (i : Interval) (n : Nat) (place : Int) : Bool :=
  i.value.compare (.scaled (2 * n + 1) 10 place |> halve) != .lt
where
  halve (r : Ratio) : Ratio :=
    ⟨r.numerator, 2 * r.denominator⟩

def Interval.hit? (i : Interval) (place : Int) : Option Nat :=
  let unit := Ratio.scaled 1 10 place
  let n := i.value.numerator * unit.denominator / (i.value.denominator * unit.numerator)
  match i.holds (.scaled n 10 place), i.holds (.scaled (n + 1) 10 place) with
  | true, true => some (if isUpperNearer i n place then n + 1 else n)
  | true, false => some n
  | false, true => some (n + 1)
  | false, false => none

def maxDigits : Nat :=
  17

def Interval.search (i : Interval) (place : Int) : (steps : Nat) → Nat × Int
  | 0 => ((i.hit? place).getD 0, place)
  | steps + 1 =>
    match i.hit? place with
    | some n => (n, place)
    | none => i.search (place - 1) steps

def Ratio.firstPlace (r : Ratio) : Int :=
  let length (n : Nat) : Int := (Nat.toDigits 10 n).length
  length r.numerator - length r.denominator

def dropZeros (digits : List Char) : List Char :=
  (digits.reverse.dropWhile (· == '0')).reverse

def positional (n : Nat) (place : Int) : List Char :=
  let digits := Nat.toDigits 10 n
  if 0 ≤ place then
    digits ++ List.replicate place.toNat '0' ++ ['.', '0']
  else
    let count := place.natAbs
    let digits := List.replicate (count + 1 - digits.length) '0' ++ digits
    let fraction := dropZeros (digits.drop (digits.length - count))
    digits.take (digits.length - count) ++ '.' :: (if fraction.isEmpty then ['0'] else fraction)

def positiveText (mantissa : Nat) (exponent : Int) : List Char :=
  let i := interval mantissa exponent
  let (n, place) := i.search i.value.firstPlace (maxDigits + 1)
  positional n place

def text : Binary64 → String
  | .nan => "NaN"
  | .infinite negative => if negative then "-inf" else "inf"
  | .finite negative mantissa exponent =>
    let magnitude := if mantissa == 0 then "0.0".toList else positiveText mantissa exponent
    String.ofList (if negative then '-' :: magnitude else magnitude)

end PatternLint.Binary64
