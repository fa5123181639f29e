import PatternLint.Checker

/-!
This module contains schedules: the checks of a run in their order, each with the unit that it
looks at. A unit is kept once, however many checks look at it.
-/

namespace PatternLint

structure Check (P : Type) where
  unit : Nat
  checker : Checker P
  deriving DecidableEq, Repr

structure Schedule (U P : Type) where
  units : List U
  checks : List (Check P)
  deriving DecidableEq, Repr

namespace Schedule

variable {U P : Type}

def empty : Schedule U P :=
  ⟨[], []⟩

instance : Inhabited (Schedule U P) :=
  ⟨empty⟩

def push (s : Schedule U P) (unit : U) (set : CheckerSet P) : Schedule U P :=
  -- no check would look at the unit
  if set.isEmpty then
    s
  else
    ⟨s.units ++ [unit], s.checks ++ set.checkers.map (Check.mk s.units.length)⟩

def append (s t : Schedule U P) : Schedule U P :=
  ⟨s.units ++ t.units,
    s.checks ++ t.checks.map fun check => { check with unit := check.unit + s.units.length }⟩

def pairs (s : Schedule U P) : List (U × Checker P) :=
  s.checks.filterMap fun check => s.units[check.unit]?.map fun unit => (unit, check.checker)

end Schedule

end PatternLint
