import Mathlib.Data.List.Chain
import PatternLint.Proofs.Except
import PatternLint.Proofs.Schedule.Coverage

/-!
This module contains the law of how schedules are kept. However one is built by pushing units and
appending schedules, its checks are numbered by its units in their order: each unit has a check, its checks
stand together, and no check looks at a unit that is not there.
-/

namespace PatternLint

variable {U P : Type}

namespace Check

def shift (n : Nat) (check : Check P) : Check P :=
  { check with unit := check.unit + n }

@[simp]
theorem shift_unit (n : Nat) (check : Check P) : (check.shift n).unit = check.unit + n := by
  rfl

@[simp]
theorem shift_checker (n : Nat) (check : Check P) : (check.shift n).checker = check.checker := by
  rfl

end Check

namespace Schedule

/-- The schedules that are built from empty ones by pushing units and appending other schedules. -/
inductive Built : Schedule U P → Prop where
  | empty : Built .empty
  | push {s : Schedule U P} (hs : Built s) (unit : U) (set : CheckerSet P) : Built (s.push unit set)
  | append {s t : Schedule U P} (hs : Built s) (ht : Built t) : Built (s.append t)

/-! ### Which pairs there are -/

def pair? (s : Schedule U P) (check : Check P) : Option (U × Checker P) :=
  s.units[check.unit]?.map fun unit => (unit, check.checker)

theorem mapM_pair?_eq_filterMap {s : Schedule U P} {checks : List (Check P)}
    (h : ∀ check ∈ checks, check.unit < s.units.length)
    : checks.mapM s.pair? = some (checks.filterMap s.pair?) := by
  induction checks with
  | nil => rfl
  | cons check checks ih =>
    obtain ⟨hlt, hrest⟩ := List.forall_mem_cons.1 h
    have hpair : s.pair? check = some (s.units[check.unit], check.checker) := by
      unfold pair?
      rw [List.getElem?_eq_getElem hlt]
      rfl
    rw [List.mapM_cons, List.filterMap_cons_some hpair, hpair, ih hrest]
    rfl

theorem mapM_pair?_checks {s : Schedule U P} (h : s.InRange) : s.checks.mapM s.pair? = some s.pairs := by
  apply mapM_pair?_eq_filterMap
  exact h

theorem push_eq_append (s : Schedule U P) (unit : U) (set : CheckerSet P)
    : s.push unit set = s.append (empty.push unit set) := by
  rw [append_push, append_empty]

theorem pairs_push {s : Schedule U P} (hs : s.InRange) (unit : U) (set : CheckerSet P)
    : (s.push unit set).pairs = s.pairs ++ set.checkers.map fun checker => (unit, checker) := by
  rw [push_eq_append, pairs_append hs, pairs_push_empty]

/-! ### How checks are numbered -/

theorem checks_append (s t : Schedule U P)
    : (s.append t).checks = s.checks ++ t.checks.map (Check.shift s.units.length) := by
  rfl

theorem length_units_append (s t : Schedule U P)
    : (s.append t).units.length = s.units.length + t.units.length := by
  rw [units_append, List.length_append]

def HasChecksOn (s : Schedule U P) (i : Nat) : Prop :=
  ∃ before own after, s.checks = before ++ own ++ after ∧ own ≠ []
    ∧ (∀ check ∈ before, check.unit < i)
    ∧ (∀ check ∈ own, check.unit = i)
    ∧ ∀ check ∈ after, i < check.unit

/--
The checks of a schedule are numbered by its units in their order, with no unit left out. Those on one
unit come in the order of the bytes of their names.
-/
structure IsNumbered (s : Schedule U P) : Prop where
  inRange : s.InRange
  steps : s.checks.IsChain fun c d => c.unit ≤ d.unit ∧ d.unit ≤ c.unit + 1
  first : ∀ check ∈ s.checks.head?, check.unit = 0
  last : ∀ check ∈ s.checks.getLast?, check.unit + 1 = s.units.length
  together : ∀ i < s.units.length, s.HasChecksOn i
  increasing : s.checks.Pairwise fun c d =>
    c.unit = d.unit → Text.bytes c.checker.name < Text.bytes d.checker.name

theorem isNumbered_empty : (empty : Schedule U P).IsNumbered where
  inRange := inRange_empty
  steps := .nil
  first check h := by contradiction
  last check h := by contradiction
  together i h := by contradiction
  increasing := .nil

theorem isNumbered_push_empty (unit : U) (set : CheckerSet P)
    : (empty.push unit set : Schedule U P).IsNumbered := by
  have hrange : (empty.push unit set : Schedule U P).InRange := inRange_push inRange_empty unit set
  by_cases hset : set.isEmpty = true
  . have hpush : (empty.push unit set : Schedule U P) = empty := if_pos hset
    rw [hpush]
    exact isNumbered_empty
  . have hpush : (empty.push unit set : Schedule U P) = ⟨[unit], set.checkers.map (Check.mk 0)⟩ :=
      if_neg hset
    rw [hpush] at hrange ⊢
    have hunit : ∀ check ∈ set.checkers.map (Check.mk 0), check.unit = 0 := by
      intro check h
      obtain ⟨checker, _, rfl⟩ := List.mem_map.1 h
      rfl
    constructor
    case inRange => exact hrange
    case steps =>
      rw [List.isChain_map]
      exact (List.pairwise_of_forall fun _ _ => ⟨Nat.le_refl 0, Nat.zero_le 1⟩).isChain
    case first =>
      intro check h
      exact hunit check (List.mem_of_mem_head? h)
    case last =>
      intro check h
      rw [hunit check (List.mem_of_getLast? h)]
      rfl
    case together =>
      intro i hi
      have hi : i = 0 := Nat.lt_one_iff.1 hi
      subst hi
      refine ⟨[], set.checkers.map (Check.mk 0), [], by simp, ?_, by simp, hunit, by simp⟩
      rw [ne_eq, List.map_eq_nil_iff]
      intro hnil
      exact hset (CheckerSet.isEmpty_iff.2 hnil)
    case increasing =>
      rw [List.pairwise_map]
      apply set.pairwise_bytes.imp
      intro c d hlt _
      exact hlt

theorem IsNumbered.units_eq_nil {s : Schedule U P} (h : s.IsNumbered) (hnil : s.checks = [])
    : s.units = [] := by
  by_contra hunits
  obtain ⟨before, own, after, hchecks, hown, _⟩ := h.together 0 (List.length_pos_iff.2 hunits)
  rw [hnil, eq_comm, List.append_eq_nil_iff, List.append_eq_nil_iff] at hchecks
  exact hown hchecks.1.2

theorem HasChecksOn.append_left {s : Schedule U P} {i : Nat} (h : s.HasChecksOn i)
    (hi : i < s.units.length) (t : Schedule U P) : (s.append t).HasChecksOn i := by
  obtain ⟨before, own, after, hchecks, hown, hbefore, hon, hafter⟩ := h
  refine ⟨before, own, after ++ t.checks.map (Check.shift s.units.length), ?_, hown, hbefore, hon, ?_⟩
  . rw [checks_append, hchecks, List.append_assoc _ after]
  . intro check hcheck
    rw [List.mem_append, List.mem_map] at hcheck
    rcases hcheck with hcheck | ⟨old, _, rfl⟩
    . exact hafter check hcheck
    . rw [Check.shift_unit]
      omega

theorem HasChecksOn.append_right {s t : Schedule U P} (hs : s.InRange) {i : Nat} (h : t.HasChecksOn i)
    : (s.append t).HasChecksOn (i + s.units.length) := by
  obtain ⟨before, own, after, hchecks, hown, hbefore, hon, hafter⟩ := h
  refine ⟨s.checks ++ before.map (Check.shift s.units.length), own.map (Check.shift s.units.length),
    after.map (Check.shift s.units.length), ?_, ?_, ?_, ?_, ?_⟩
  . rw [checks_append, hchecks]
    simp
  . simpa using hown
  . intro check hcheck
    rw [List.mem_append, List.mem_map] at hcheck
    rcases hcheck with hcheck | ⟨old, hold, rfl⟩
    . have := hs check hcheck
      omega
    . have := hbefore old hold
      rw [Check.shift_unit]
      omega
  . intro check hcheck
    obtain ⟨old, hold, rfl⟩ := List.mem_map.1 hcheck
    rw [Check.shift_unit, hon old hold]
  . intro check hcheck
    obtain ⟨old, hold, rfl⟩ := List.mem_map.1 hcheck
    have := hafter old hold
    rw [Check.shift_unit]
    omega

section Append

variable {s t : Schedule U P} (hs : s.IsNumbered) (ht : t.IsNumbered)

include hs ht

theorem IsNumbered.steps_append
    : (s.append t).checks.IsChain fun c d => c.unit ≤ d.unit ∧ d.unit ≤ c.unit + 1 := by
  rw [checks_append, List.isChain_append, List.isChain_map]
  refine ⟨hs.steps, ?_, ?_⟩
  . apply ht.steps.imp
    intro c d hstep
    rw [Check.shift_unit, Check.shift_unit]
    omega
  . -- the last unit of `s` is followed by the first one of `t`
    intro c hc d hd
    rw [List.head?_map, Option.mem_def, Option.map_eq_some_iff] at hd
    obtain ⟨old, hold, rfl⟩ := hd
    have hlast := hs.last c hc
    have hfirst := ht.first old hold
    rw [Check.shift_unit]
    omega

theorem IsNumbered.first_append : ∀ check ∈ (s.append t).checks.head?, check.unit = 0 := by
  intro check h
  rw [checks_append, List.head?_append, Option.mem_def, Option.or_eq_some_iff] at h
  rcases h with h | ⟨hnone, h⟩
  . exact hs.first check h
  . rw [List.head?_map, Option.map_eq_some_iff] at h
    obtain ⟨old, hold, rfl⟩ := h
    have hunits := hs.units_eq_nil (List.head?_eq_none_iff.1 hnone)
    rw [Check.shift_unit, ht.first old hold, hunits]
    rfl

theorem IsNumbered.last_append
    : ∀ check ∈ (s.append t).checks.getLast?, check.unit + 1 = (s.append t).units.length := by
  intro check h
  rw [checks_append, List.getLast?_append, Option.mem_def, Option.or_eq_some_iff] at h
  rw [length_units_append]
  rcases h with h | ⟨hnone, h⟩
  . rw [List.getLast?_map, Option.map_eq_some_iff] at h
    obtain ⟨old, hold, rfl⟩ := h
    have hlast := ht.last old hold
    rw [Check.shift_unit]
    omega
  . rw [List.getLast?_eq_none_iff, List.map_eq_nil_iff] at hnone
    rw [hs.last check h, ht.units_eq_nil hnone]
    rfl

theorem IsNumbered.together_append : ∀ i < (s.append t).units.length, (s.append t).HasChecksOn i := by
  intro i hi
  rw [length_units_append] at hi
  by_cases hleft : i < s.units.length
  . exact (hs.together i hleft).append_left hleft t
  . have hright := (ht.together (i - s.units.length) (by omega)).append_right hs.inRange
    rwa [Nat.sub_add_cancel (by omega)] at hright

theorem IsNumbered.increasing_append
    : (s.append t).checks.Pairwise fun c d =>
        c.unit = d.unit → Text.bytes c.checker.name < Text.bytes d.checker.name := by
  rw [checks_append, List.pairwise_append, List.pairwise_map]
  refine ⟨hs.increasing, ?_, ?_⟩
  . apply ht.increasing.imp
    intro c d hlt heq
    rw [Check.shift_unit, Check.shift_unit, Nat.add_right_cancel_iff] at heq
    rw [Check.shift_checker, Check.shift_checker]
    exact hlt heq
  . -- no unit of `s` is one of `t`
    intro c hc d hd heq
    obtain ⟨old, _, rfl⟩ := List.mem_map.1 hd
    have hrange := hs.inRange c hc
    rw [Check.shift_unit] at heq
    omega

theorem isNumbered_append : (s.append t).IsNumbered where
  inRange := inRange_append hs.inRange ht.inRange
  steps := hs.steps_append ht
  first := hs.first_append ht
  last := hs.last_append ht
  together := hs.together_append ht
  increasing := hs.increasing_append ht

end Append

theorem Built.isNumbered {s : Schedule U P} (h : s.Built) : s.IsNumbered := by
  induction h with
  | empty => exact isNumbered_empty
  | push _ unit set ih =>
    rw [push_eq_append]
    exact isNumbered_append ih (isNumbered_push_empty unit set)
  | append _ _ ihs iht => exact isNumbered_append ihs iht

/-! ### The schedules of projects -/

theorem built_ofPlan (provider : Provider U) (plan : Plan P) : (ofPlan provider plan).Built := by
  induction plan with
  | nil => exact .empty
  | cons planned plan ih =>
    rw [ofPlan_cons]
    refine .append ?_ ih
    unfold addPlanned
    split
    . exact .push .empty _ _
    . exact .empty

theorem isNumbered_of_ofProject {policy : Policy P} {provider : Provider U} {s : Schedule U P}
    (h : ofProject policy provider = .ok s) : s.IsNumbered := by
  rw [ofProject_eq_plan] at h
  obtain ⟨plan, _, rfl⟩ := map_eq_ok_iff.1 h
  exact (built_ofPlan provider plan).isNumbered

/--
The law of how schedules are kept. One that is built by pushing and appending is numbered, and each of its
checks has a pair. Its pairs are those of what was pushed and appended in this order, for which the checks
that are appended get other numbers, and it does not matter how the appending is nested.
-/
theorem laws_of_built (s : Schedule U P) (h : s.Built)
    : s.IsNumbered
        ∧ s.checks.mapM s.pair? = some s.pairs
        ∧ (∀ unit set, (s.push unit set).pairs
            = s.pairs ++ set.checkers.map fun checker => (unit, checker))
        ∧ (∀ t : Schedule U P, (s.append t).pairs = s.pairs ++ t.pairs
            ∧ (s.append t).checks = s.checks ++ t.checks.map (Check.shift s.units.length))
        ∧ (∀ t u : Schedule U P, (s.append t).append u = s.append (t.append u))
        ∧ s.append .empty = s
        ∧ empty.append s = s := by
  have hnumbered := h.isNumbered
  refine ⟨hnumbered, mapM_pair?_checks hnumbered.inRange, ?_, ?_, ?_, append_empty s, empty_append s⟩
  . exact pairs_push hnumbered.inRange
  . intro t
    exact ⟨pairs_append hnumbered.inRange t, checks_append s t⟩
  . exact append_assoc s

def sampleNested : Schedule String Unit :=
  let both := (CheckerSet.empty.add (sampleRule "b")).add (sampleRule "a")
  let one := CheckerSet.empty.add (sampleRule "a")
  ((empty.push "first" both).append empty).append
    (((empty.push "dropped" .empty).append (empty.push "second" one)).push "third" both)

theorem laws_of_built_sample
    : sampleNested.Built
        ∧ sampleNested.units = ["first", "second", "third"]
        ∧ sampleNested.checks.map (fun check => (check.unit, check.checker.name))
          = [(0, "a"), (0, "b"), (1, "a"), (2, "a"), (2, "b")]
        ∧ sampleNested.HasChecksOn 1
        ∧ sampleNested.checks.mapM sampleNested.pair? = some sampleNested.pairs
        ∧ (sampleNested.append sampleNested).pairs = sampleNested.pairs ++ sampleNested.pairs := by
  have hbuilt : sampleNested.Built :=
    .append (.append (.push .empty _ _) .empty)
      (.push (.append (.push .empty _ _) (.push .empty _ _)) _ _)
  obtain ⟨hnumbered, hpairs, _, happend, _⟩ := laws_of_built sampleNested hbuilt
  have hunits : sampleNested.units = ["first", "second", "third"] := by
    decide +kernel
  have htogether : sampleNested.HasChecksOn 1 := by
    apply hnumbered.together
    rw [hunits]
    decide
  exact ⟨hbuilt, hunits, by decide +kernel, htogether, hpairs, (happend sampleNested).1⟩

end Schedule

end PatternLint
