import Mathlib.Data.List.Basic
import PatternLint.Proofs.Checker
import PatternLint.Schedule.Basic

/-!
This module contains the laws of putting schedules together: units keep their order, and the checks
of one schedule are followed by those of the other with the same units.
-/

namespace PatternLint

variable {U P : Type}

namespace Schedule

@[simp]
theorem append_empty (s : Schedule U P) : s.append .empty = s := by
  simp [append, empty]

@[simp]
theorem empty_append (s : Schedule U P) : empty.append s = s := by
  simp [append, empty]

theorem append_assoc (s t u : Schedule U P) : (s.append t).append u = s.append (t.append u) := by
  unfold append
  simp only [mk.injEq, List.append_assoc, List.map_append, List.map_map, true_and,
    List.append_cancel_left_eq, List.length_append]
  apply List.map_congr_left
  intro check _
  simp only [Function.comp_apply, Check.mk.injEq, and_true]
  omega

theorem append_push (s t : Schedule U P) (unit : U) (set : CheckerSet P)
    : s.append (t.push unit set) = (s.append t).push unit set := by
  unfold push
  split
  . rfl
  . unfold append
    simp only [mk.injEq, List.append_assoc, List.map_append, List.map_map, true_and,
      List.append_cancel_left_eq, List.length_append]
    apply List.map_congr_left
    intro checker _
    simp only [Function.comp_apply, Check.mk.injEq, and_true]
    omega

def InRange (s : Schedule U P) : Prop :=
  ∀ check ∈ s.checks, check.unit < s.units.length

theorem inRange_empty : InRange (empty : Schedule U P) := by
  intro check h
  contradiction

theorem inRange_append {s t : Schedule U P} (hs : s.InRange) (ht : t.InRange)
    : (s.append t).InRange := by
  intro check h
  unfold append at h ⊢
  dsimp at h ⊢
  rw [List.length_append]
  rw [List.mem_append, List.mem_map] at h
  rcases h with h | ⟨old, h, rfl⟩
  . have := hs check h
    omega
  . have := ht old h
    dsimp
    omega

theorem inRange_push {s : Schedule U P} (hs : s.InRange) (unit : U) (set : CheckerSet P)
    : (s.push unit set).InRange := by
  unfold push
  split
  . exact hs
  . intro check h
    dsimp at h ⊢
    rw [List.length_append, List.length_singleton]
    rw [List.mem_append, List.mem_map] at h
    rcases h with h | ⟨checker, _, rfl⟩
    . have := hs check h
      omega
    . dsimp
      omega

theorem pairs_append {s : Schedule U P} (hs : s.InRange) (t : Schedule U P)
    : (s.append t).pairs = s.pairs ++ t.pairs := by
  unfold pairs append
  dsimp
  rw [List.filterMap_append, List.filterMap_map]
  congr 1
  . apply List.filterMap_congr
    intro check h
    rw [List.getElem?_append_left (hs check h)]
  . apply List.filterMap_congr
    intro check _
    rw [Function.comp_apply, List.getElem?_append_right (by simp), Nat.add_sub_cancel]

theorem pairs_push_empty (unit : U) (set : CheckerSet P)
    : (empty.push unit set).pairs = set.checkers.map fun checker => (unit, checker) := by
  unfold push
  split
  . next h =>
    rw [CheckerSet.isEmpty_iff.1 h]
    rfl
  . unfold pairs
    dsimp [empty]
    rw [List.filterMap_map, ← List.filterMap_eq_map]
    rfl

theorem units_append (s t : Schedule U P) : (s.append t).units = s.units ++ t.units := by
  rfl

theorem units_push_empty (unit : U) (set : CheckerSet P)
    : ((empty : Schedule U P).push unit set).units = if set.isEmpty then [] else [unit] := by
  unfold push
  split <;> rfl

end Schedule

end PatternLint
