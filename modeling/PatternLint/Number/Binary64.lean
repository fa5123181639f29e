/-!
This module contains the numbers of the format binary64: a mantissa of at most 53 bits times a power
of two. The number nearest to a decimal is found in exact arithmetic, and of two equally near ones
it is the one with the even mantissa.
-/

namespace PatternLint

inductive Binary64 where
  | finite (negative : Bool) (mantissa : Nat) (exponent : Int)
  | infinite (negative : Bool)
  | nan
  deriving DecidableEq, Repr, Inhabited

namespace Binary64

def mantissaBits : Nat :=
  53

def minExponent : Int :=
  -1074

def maxExponent : Int :=
  971

structure Ratio where
  numerator : Nat
  denominator : Nat
  deriving Repr

def Ratio.scaled (m base : Nat) (e : Int) : Ratio :=
  if e < 0 then ⟨m, base.pow e.natAbs⟩ else ⟨m * base.pow e.natAbs, 1⟩

def Ratio.shift (r : Ratio) (e : Int) : Ratio :=
  if e < 0 then
    ⟨r.numerator * Nat.pow 2 e.natAbs, r.denominator⟩
  else
    ⟨r.numerator, r.denominator * Nat.pow 2 e.natAbs⟩

def Ratio.round (r : Ratio) : Nat :=
  let floor := r.numerator / r.denominator
  let twice := 2 * (r.numerator % r.denominator)
  if twice < r.denominator || (twice == r.denominator && floor % 2 == 0) then floor else floor + 1

def Ratio.exponent (r : Ratio) : Int :=
  let guess : Int := r.numerator.log2 - r.denominator.log2 - mantissaBits
  let scaled := r.shift guess
  let isShort := scaled.numerator < Nat.pow 2 mantissaBits * scaled.denominator
  max (if isShort then guess else guess + 1) minExponent

def ofRatio (negative : Bool) (r : Ratio) : Binary64 :=
  let exponent := r.exponent
  let rounded := (r.shift exponent).round
  -- rounding may carry into one bit more, and the mantissa then ends in a zero
  let (mantissa, exponent) :=
    if rounded < Nat.pow 2 mantissaBits then (rounded, exponent) else (rounded / 2, exponent + 1)
  if maxExponent < exponent then .infinite negative else .finite negative mantissa exponent

def maxMagnitude : Int :=
  311

def minMagnitude : Int :=
  -330

def ofDecimal (negative : Bool) (digits : List Nat) (e : Int) : Binary64 :=
  let digits := digits.dropWhile (· == 0)
  let magnitude := digits.length + e
  if digits.isEmpty || magnitude ≤ minMagnitude then
    .finite negative 0 0
  else if maxMagnitude ≤ magnitude then
    .infinite negative
  else
    ofRatio negative (Ratio.scaled (digits.foldl (fun n d => 10 * n + d) 0) 10 e)

end Binary64

end PatternLint
