import PatternLint.Diagnostic
import PatternLint.Schedule.Basic

/-!
This module contains runs: the checks of a schedule are evaluated in their order, until there are
more findings than the budget allows.
-/

namespace PatternLint

abbrev Matcher (U P : Type) :=
  U → P → Except String (List (List Position))

inductive Outcome where
  | clean
  | findings (diagnostics : List Diagnostic)
  | choked (diagnostics : List Diagnostic)
  deriving DecidableEq, Repr

namespace Outcome

def diagnostics : Outcome → List Diagnostic
  | clean => []
  | findings ds | choked ds => ds

def isClean : Outcome → Bool
  | clean => true
  | _ => false

def exitCode (o : Outcome) : Nat :=
  if o.isClean then 0 else 1

def name : Outcome → String
  | clean => "Clean"
  | findings _ => "Findings"
  | choked _ => "Choked"

end Outcome

variable {U P : Type}

def checkFindings (find : Matcher U P) (unit : U) (checker : Checker P) : List Diagnostic :=
  match find unit checker.pattern with
  | .ok groups => groups.flatten.map fun position => ⟨some position, checker.message⟩
  -- a failure takes a place in the budget like any other diagnostic
  | .error message => [⟨none, message⟩]

namespace Collection

def pushAll (c : Collection) : List Diagnostic → Collection × Bool
  | [] => (c, true)
  | d :: ds =>
    match c.push? d with
    | some c => c.pushAll ds
    | none => (c, false)

def outcome (c : Collection) : Outcome :=
  if c.diagnostics.isEmpty then .clean else .findings c.diagnostics

end Collection

structure Run where
  outcome : Outcome
  evaluated : Nat
  deriving DecidableEq, Repr

namespace Run

def continueWith (find : Matcher U P) (found : Collection) (evaluated : Nat) :
    List (U × Checker P) → Run
  | [] => ⟨found.outcome, evaluated⟩
  | (unit, checker) :: rest =>
    match found.pushAll (checkFindings find unit checker) with
    | (found, true) => continueWith find found (evaluated + 1) rest
    | (found, false) => ⟨.choked found.diagnostics, evaluated + 1⟩

def recordSize : Nat :=
  64

def maxReservation : Nat :=
  UInt64.size / 2 - 1

def canReserve (budget : Budget) : Bool :=
  budget.limit * recordSize ≤ maxReservation

def ofSchedule? (find : Matcher U P) (budget : Budget) (s : Schedule U P) : Option Run :=
  if canReserve budget then
    some (continueWith find (.empty budget) 0 s.pairs)
  else
    none

end Run

end PatternLint
