import Mathlib.Logic.Relation
import PatternLint.Run

/-!
This module contains the law of the budget. A run is seen as a machine that evaluates one check or
records one diagnostic at a time. What it has collected and evaluated in any of its states is
accounted for by what the checks of the schedule find, and so is the outcome that it ends with.
-/

namespace PatternLint

variable {U P : Type}

/--
What checks find in their order: a diagnostic for each position of each group, or one for a failure
of the matcher.
-/
def findings (find : Matcher U P) (checks : List (U × Checker P)) : List Diagnostic :=
  checks.flatMap fun check =>
    match find check.1 check.2.pattern with
    | .ok groups => groups.flatMap fun group => group.map fun p => ⟨some p, check.2.message⟩
    | .error text => [⟨none, text⟩]

section Findings

variable (find : Matcher U P)

@[simp]
theorem findings_nil : findings find [] = [] := by
  rfl

@[simp]
theorem findings_cons (unit : U) (checker : Checker P) (rest : List (U × Checker P))
    : findings find ((unit, checker) :: rest)
        =
      checkFindings find unit checker ++ findings find rest := by
  unfold findings checkFindings
  rw [List.flatMap_cons]
  congr 1
  cases find unit checker.pattern with
  | error text => rfl
  | ok groups =>
    dsimp
    rw [List.map_flatten, List.flatMap_def]

@[simp]
theorem findings_append (checks rest : List (U × Checker P))
    : findings find (checks ++ rest) = findings find checks ++ findings find rest := by
  apply List.flatMap_append

theorem findings_congr {find find' : Matcher U P} {checks : List (U × Checker P)}
    (h : ∀ check ∈ checks, find' check.1 check.2.pattern = find check.1 check.2.pattern)
    : findings find' checks = findings find checks := by
  unfold findings
  rw [List.flatMap_def, List.flatMap_def]
  congr 1
  apply List.map_congr_left
  intro check hcheck
  rw [h check hcheck]

theorem findings_take_isPrefix (checks : List (U × Checker P)) (n : Nat)
    : findings find (checks.take n) <+: findings find checks := by
  refine ⟨findings find (checks.drop n), ?_⟩
  rw [← findings_append, List.take_append_drop]

theorem findings_take_length_le (checks : List (U × Checker P)) {m n : Nat} (h : m ≤ n)
    : (findings find (checks.take m)).length ≤ (findings find (checks.take n)).length := by
  have := findings_take_isPrefix find (checks.take n) m
  rw [List.take_take, Nat.min_eq_left h] at this
  exact this.length_le

end Findings

namespace Collection

theorem push?_eq_none_iff {c : Collection} {d : Diagnostic}
    : c.push? d = none ↔ c.diagnostics.length = c.budget.limit := by
  have := c.length_le
  unfold push?
  split
  . next hlt =>
    simp only [reduceCtorEq, false_iff]
    omega
  . simp only [true_iff]
    omega

theorem eq_of_push? {c c' : Collection} {d : Diagnostic} (h : c.push? d = some c')
    : c'.budget = c.budget ∧ c'.diagnostics = c.diagnostics ++ [d] := by
  unfold push? at h
  split at h
  . injection h with h
    rw [← h]
    exact ⟨rfl, rfl⟩
  . contradiction

theorem outcome_eq (c : Collection)
    : c.outcome = if c.diagnostics = [] then .clean else .findings c.diagnostics := by
  unfold outcome
  simp only [List.isEmpty_iff]

end Collection

namespace Run

/--
A run in progress: what is collected, what the last evaluated check found beyond that, how many
checks were evaluated, and those that are left.
-/
structure State (U P : Type) where
  found : Collection
  pending : List Diagnostic
  evaluated : Nat
  rest : List (U × Checker P)

def State.start (budget : Budget) (s : Schedule U P) : State U P :=
  ⟨.empty budget, [], 0, s.pairs⟩

inductive Step (find : Matcher U P) : State U P → State U P → Prop where
  | evaluate {found : Collection} {n : Nat} {unit : U} {checker : Checker P}
      {rest : List (U × Checker P)} :
      Step find ⟨found, [], n, (unit, checker) :: rest⟩
        ⟨found, checkFindings find unit checker, n + 1, rest⟩
  | record {found found' : Collection} {d : Diagnostic} {ds : List Diagnostic} {n : Nat}
      {rest : List (U × Checker P)} (hpush : found.push? d = some found') :
      Step find ⟨found, d :: ds, n, rest⟩ ⟨found', ds, n, rest⟩

def Reaches (find : Matcher U P) : State U P → State U P → Prop :=
  Relation.ReflTransGen (Step find)

inductive Ends : State U P → Run → Prop where
  | drained {found : Collection} {n : Nat} :
      Ends ⟨found, [], n, []⟩ ⟨found.outcome, n⟩
  | choked {found : Collection} {d : Diagnostic} {ds : List Diagnostic} {n : Nat}
      {rest : List (U × Checker P)} (hpush : found.push? d = none) :
      Ends ⟨found, d :: ds, n, rest⟩ ⟨.choked found.diagnostics, n⟩

theorem pushAll_reaches (find : Matcher U P) (n : Nat) (rest : List (U × Checker P))
    (found : Collection) (ds : List Diagnostic)
    : ∃ left, Reaches find ⟨found, ds, n, rest⟩ ⟨(found.pushAll ds).1, left, n, rest⟩
        ∧ (if (found.pushAll ds).2 then left = []
          else ∃ d ds', left = d :: ds' ∧ (found.pushAll ds).1.push? d = none) := by
  induction ds generalizing found with
  | nil =>
    refine ⟨[], .refl, ?_⟩
    simp [Collection.pushAll]
  | cons d ds ih =>
    unfold Collection.pushAll
    split
    . next found' hpush =>
      obtain ⟨left, hreach, hleft⟩ := ih found'
      exact ⟨left, .head (.record hpush) hreach, hleft⟩
    . next hpush =>
      refine ⟨d :: ds, .refl, ?_⟩
      simp [hpush]

theorem continueWith_reaches (find : Matcher U P) (found : Collection) (n : Nat)
    (rest : List (U × Checker P))
    : ∃ last, Reaches find ⟨found, [], n, rest⟩ last
        ∧ Ends last (continueWith find found n rest) := by
  induction rest generalizing found n with
  | nil => exact ⟨_, .refl, .drained⟩
  | cons pair rest ih =>
    obtain ⟨unit, checker⟩ := pair
    obtain ⟨left, hreach, hleft⟩ :=
      pushAll_reaches find (n + 1) rest found (checkFindings find unit checker)
    have hreach : Reaches find ⟨found, [], n, (unit, checker) :: rest⟩ _ := .head .evaluate hreach
    unfold continueWith
    split
    . next found' hpush =>
      simp only [hpush, ↓reduceIte] at hreach hleft
      subst hleft
      obtain ⟨last, hlast, hends⟩ := ih found' (n + 1)
      exact ⟨last, hreach.trans hlast, hends⟩
    -- the rest of what this check found has no room, and the run ends in it
    . next found' hpush =>
      simp only [hpush, Bool.false_eq_true, ↓reduceIte] at hreach hleft
      obtain ⟨d, ds, rfl, hnone⟩ := hleft
      exact ⟨_, hreach, .choked hnone⟩

/--
What is collected and still to be recorded is what the evaluated checks find. All but the last of
these are recorded in full.
-/
structure Accounted (find : Matcher U P) (budget : Budget) (checks : List (U × Checker P))
    (st : State U P) : Prop where
  budget_eq : st.found.budget = budget
  rest_eq : st.rest = checks.drop st.evaluated
  evaluated_le : st.evaluated ≤ checks.length
  balance : st.found.diagnostics ++ st.pending = findings find (checks.take st.evaluated)
  recorded : ∀ n < st.evaluated,
    (findings find (checks.take n)).length ≤ st.found.diagnostics.length

section Accounts

variable {find : Matcher U P} {budget : Budget} {checks : List (U × Checker P)}

theorem accounted_start (s : Schedule U P)
    : Accounted find budget s.pairs (State.start budget s) where
  budget_eq := rfl
  rest_eq := rfl
  evaluated_le := Nat.zero_le _
  balance := rfl
  recorded := by
    intro n hn
    contradiction

theorem accounted_step {st st' : State U P} (h : Accounted find budget checks st)
    (hstep : Step find st st') : Accounted find budget checks st' := by
  obtain ⟨hbudget, hrest, hle, hbalance, hrecorded⟩ := h
  cases hstep with
  | @evaluate found n unit checker rest =>
    dsimp at hbudget hrest hle hbalance hrecorded
    -- a check is left, so the one evaluated now is the next of the schedule
    have hlt : n < checks.length := by
      have := congrArg List.length hrest
      simp only [List.length_cons, List.length_drop] at this
      omega
    have hnext : checks.take (n + 1) = checks.take n ++ [(unit, checker)] := by
      rw [List.take_succ_eq_append_getElem hlt]
      rw [List.drop_eq_getElem_cons hlt] at hrest
      injection hrest with hhead
      rw [hhead]
    rw [List.append_nil] at hbalance
    refine ⟨hbudget, ?_, hlt, ?_, ?_⟩
    . rw [← List.drop_drop, ← hrest]
      rfl
    . rw [hnext]
      simp [hbalance]
    -- nothing is pending here, so all checks before this one are recorded in full
    . intro m hm
      rw [hbalance]
      apply findings_take_length_le
      exact Nat.lt_succ_iff.1 hm
  | record hpush =>
    dsimp at hbudget hrest hle hbalance hrecorded
    obtain ⟨hbudget', hdiagnostics⟩ := Collection.eq_of_push? hpush
    refine ⟨hbudget'.trans hbudget, hrest, hle, ?_, ?_⟩
    . rw [← hbalance, hdiagnostics]
      simp
    . intro m hm
      have := hrecorded m hm
      dsimp
      rw [hdiagnostics, List.length_append]
      omega

theorem accounted_of_reaches {st st' : State U P} (h : Accounted find budget checks st)
    (hreach : Reaches find st st') : Accounted find budget checks st' := by
  induction hreach with
  | refl => exact h
  | tail _ hstep ih => exact accounted_step ih hstep

theorem ends_of_drained {found : Collection} {n : Nat}
    (h : Accounted find budget checks ⟨found, [], n, []⟩)
    : n = checks.length ∧ found.diagnostics = findings find checks
        ∧ (findings find checks).length ≤ budget.limit := by
  have hn : n = checks.length := by
    apply Nat.le_antisymm h.evaluated_le
    exact List.drop_eq_nil_iff.1 h.rest_eq.symm
  have hfound := h.balance
  simp only [List.append_nil, hn, List.take_length] at hfound
  refine ⟨hn, hfound, ?_⟩
  rw [← hfound, ← h.budget_eq]
  exact found.length_le

theorem ends_of_choked {found : Collection} {d : Diagnostic} {ds : List Diagnostic} {n : Nat}
    {rest : List (U × Checker P)} (h : Accounted find budget checks ⟨found, d :: ds, n, rest⟩)
    (hpush : found.push? d = none)
    : budget.limit < (findings find checks).length
        ∧ found.diagnostics = (findings find checks).take budget.limit
        ∧ budget.limit < (findings find (checks.take n)).length
        ∧ ∀ m < n, (findings find (checks.take m)).length ≤ budget.limit := by
  have hfull : found.diagnostics.length = budget.limit := by
    rw [← h.budget_eq]
    exact Collection.push?_eq_none_iff.1 hpush
  have hover : budget.limit < (findings find (checks.take n)).length := by
    rw [← h.balance, List.length_append, hfull, List.length_cons]
    omega
  -- what is collected is the start of what the whole schedule finds
  have hpart : found.diagnostics <+: findings find checks := by
    apply List.IsPrefix.trans ⟨d :: ds, h.balance⟩
    apply findings_take_isPrefix
  refine ⟨?_, ?_, hover, ?_⟩
  . exact Nat.lt_of_lt_of_le hover (findings_take_isPrefix find checks n).length_le
  . rw [← hfull]
    exact List.prefix_iff_eq_take.1 hpart
  . intro m hm
    rw [← hfull]
    exact h.recorded m hm

end Accounts

section Outcomes

variable (find : Matcher U P) (budget : Budget)

/--
How a run ends, and how far it comes: it drains the schedule if the budget is enough for everything
that is found, and else stops in the first check that brings more than that.
-/
inductive Settles (checks : List (U × Checker P)) (run : Run) : Prop where
  | drained (hle : (findings find checks).length ≤ budget.limit)
      (houtcome : run.outcome =
        if findings find checks = [] then .clean else .findings (findings find checks))
      (hall : run.evaluated = checks.length)
  | choked (hlt : budget.limit < (findings find checks).length)
      (houtcome : run.outcome = .choked ((findings find checks).take budget.limit))
      (hover : budget.limit < (findings find (checks.take run.evaluated)).length)
      (hbefore : ∀ n < run.evaluated,
        (findings find (checks.take n)).length ≤ budget.limit)

theorem settles_of_ends {checks : List (U × Checker P)} {st : State U P} {run : Run}
    (h : Accounted find budget checks st) (hends : Ends st run)
    : Settles find budget checks run := by
  cases hends with
  | drained =>
    obtain ⟨hn, hfound, hle⟩ := ends_of_drained h
    refine .drained hle ?_ hn
    rw [← hfound]
    apply Collection.outcome_eq
  | choked hpush =>
    obtain ⟨hlt, hfound, hover, hbefore⟩ := ends_of_choked h hpush
    exact .choked hlt (by rw [hfound]) hover hbefore

theorem ofSchedule?_settles (s : Schedule U P) (hroom : canReserve budget)
    : ∃ run, ofSchedule? find budget s = some run ∧ Settles find budget s.pairs run
        ∧ ∃ st, Reaches find (.start budget s) st ∧ Ends st run := by
  obtain ⟨last, hreach, hends⟩ := continueWith_reaches find (.empty budget) 0 s.pairs
  refine ⟨_, ?_, ?_, last, hreach, hends⟩
  . unfold ofSchedule?
    rw [if_pos hroom]
  . apply settles_of_ends find budget _ hends
    exact accounted_of_reaches (accounted_start s) hreach

namespace Settles

variable {find : Matcher U P} {budget : Budget} {checks : List (U × Checker P)} {run : Run}

theorem clean_iff (h : Settles find budget checks run)
    : run.outcome = .clean ↔ findings find checks = [] := by
  cases h with
  | drained _ houtcome =>
    rw [houtcome]
    split
    . next hnil => simp [hnil]
    . next hne => simp [hne]
  | choked hlt houtcome =>
    simp only [houtcome, reduceCtorEq, false_iff]
    intro hnil
    simp [hnil] at hlt

theorem findings_iff (h : Settles find budget checks run)
    : run.outcome = .findings (findings find checks)
        ↔ 1 ≤ (findings find checks).length ∧ (findings find checks).length ≤ budget.limit := by
  cases h with
  | drained hle houtcome =>
    rw [houtcome]
    split
    . next hnil => simp [hnil]
    . next hne =>
      have := List.length_pos_iff.2 hne
      simp only [true_iff]
      omega
  | choked hlt houtcome =>
    simp only [houtcome, reduceCtorEq, false_iff]
    omega

theorem choked_iff (h : Settles find budget checks run)
    : run.outcome = .choked ((findings find checks).take budget.limit)
        ↔ budget.limit < (findings find checks).length := by
  cases h with
  | drained hle houtcome =>
    rw [houtcome]
    split <;> simp [hle]
  | choked hlt houtcome => simp [houtcome, hlt]

theorem diagnostics_eq (h : Settles find budget checks run)
    (hle : (findings find checks).length ≤ budget.limit)
    : run.outcome.diagnostics = findings find checks := by
  cases h with
  | drained _ houtcome =>
    rw [houtcome]
    split
    . next hnil =>
      rw [hnil]
      rfl
    . rfl
  | choked hlt => omega

end Settles

theorem settles_of_ofSchedule? {find : Matcher U P} {budget : Budget} {s : Schedule U P} {run : Run}
    (h : ofSchedule? find budget s = some run)
    : canReserve budget = true ∧ Settles find budget s.pairs run := by
  have hroom : canReserve budget = true := by
    unfold ofSchedule? at h
    split at h
    . assumption
    . contradiction
  obtain ⟨other, hother, hsettles, _⟩ := ofSchedule?_settles find budget s hroom
  rw [h] at hother
  cases hother
  exact ⟨hroom, hsettles⟩

theorem diagnostics_eq_take {find : Matcher U P} {budget : Budget} {checks : List (U × Checker P)} {run : Run}
    (h : Settles find budget checks run)
    : run.outcome.diagnostics
        =
      (findings find checks).take (min (findings find checks).length budget.limit) := by
  cases h with
  | drained hle houtcome =>
    rw [Nat.min_eq_left hle, List.take_length, houtcome]
    split
    . next hnil =>
      rw [hnil]
      rfl
    . rfl
  | choked hlt houtcome =>
    rw [Nat.min_eq_right (Nat.le_of_lt hlt), houtcome]
    rfl

theorem take_findings_eq {checks rest : List Diagnostic} {n : Nat} (h : checks <+: rest)
    (hn : n ≤ checks.length) : rest.take n = checks.take n := by
  obtain ⟨others, rfl⟩ := h
  apply List.take_append_of_le_length hn

theorem eq_of_settles {find find' : Matcher U P} {checks checks' : List (U × Checker P)}
    {run run' : Run} (h : Settles find budget checks run)
    (h' : Settles find' budget checks' run')
    (hlt : budget.limit < (findings find checks).length)
    (htake : checks'.take run.evaluated = checks.take run.evaluated)
    (hfind : ∀ check ∈ checks.take run.evaluated,
      find' check.1 check.2.pattern = find check.1 check.2.pattern)
    : run' = run := by
  have hsame (n : Nat) (hn : n ≤ run.evaluated)
      : findings find' (checks'.take n) = findings find (checks.take n) := by
    have : checks'.take n = checks.take n := by
      rw [← Nat.min_eq_left hn, ← List.take_take, htake, List.take_take]
    rw [this]
    apply findings_congr
    intro check hcheck
    exact hfind check (List.take_subset_take_left _ hn hcheck)
  cases h with
  | drained hle => omega
  | choked _ houtcome hover hbefore =>
    have hover' := hover
    rw [← hsame _ (Nat.le_refl _)] at hover'
    cases h' with
    | drained hle' =>
      have := (findings_take_isPrefix find' checks' run.evaluated).length_le
      omega
    | choked _ houtcome' hoverRun' hbefore' =>
      -- if one run came further than the other, it would have choked there already
      have hle : run'.evaluated ≤ run.evaluated := by
        apply Nat.le_of_not_lt
        intro hgt
        have := hbefore' _ hgt
        omega
      have hge : run.evaluated ≤ run'.evaluated := by
        apply Nat.le_of_not_lt
        intro hgt
        have := hbefore _ hgt
        rw [← hsame _ hle] at this
        omega
      have hfound := hsame _ (Nat.le_refl _)
      rw [take_findings_eq (findings_take_isPrefix find checks run.evaluated) (by omega)] at houtcome
      rw [take_findings_eq (findings_take_isPrefix find' checks' run.evaluated) (by omega), hfound,
        ← houtcome] at houtcome'
      cases run
      cases run'
      simp only [mk.injEq]
      exact ⟨houtcome', Nat.le_antisymm hle hge⟩

/--
The law of the budget. What a schedule finds in full decides how its run ends. No state of the run
has collected more than the budget allows, and a run that chokes depends on nothing after the first
checks that find more than that.
-/
theorem budget_law (s : Schedule U P) (hroom : canReserve budget)
    : ∃ run, ofSchedule? find budget s = some run
        ∧ (run.outcome = .clean ↔ findings find s.pairs = [])
        ∧ (run.outcome = .findings (findings find s.pairs)
            ↔ 1 ≤ (findings find s.pairs).length
              ∧ (findings find s.pairs).length ≤ budget.limit)
        ∧ (run.outcome = .choked ((findings find s.pairs).take budget.limit)
            ↔ budget.limit < (findings find s.pairs).length)
        ∧ (∀ st, Reaches find (.start budget s) st →
            st.found.diagnostics.length ≤ budget.limit
              ∧ st.rest = s.pairs.drop st.evaluated)
        ∧ (∃ st, Reaches find (.start budget s) st ∧ Ends st run ∧ st.evaluated = run.evaluated)
        ∧ ((findings find s.pairs).length ≤ budget.limit → run.evaluated = s.pairs.length)
        ∧ (budget.limit < (findings find s.pairs).length →
            budget.limit < (findings find (s.pairs.take run.evaluated)).length
              ∧ (∀ n < run.evaluated,
                (findings find (s.pairs.take n)).length ≤ budget.limit)
              ∧ ∀ (find' : Matcher U P) (t : Schedule U P),
                t.pairs.take run.evaluated = s.pairs.take run.evaluated →
                (∀ check ∈ s.pairs.take run.evaluated,
                  find' check.1 check.2.pattern = find check.1 check.2.pattern) →
                ofSchedule? find' budget t = some run) := by
  obtain ⟨run, hrun, hsettles, last, hreach, hends⟩ := ofSchedule?_settles find budget s hroom
  have hstates (st : State U P) (h : Reaches find (.start budget s) st)
      : Accounted find budget s.pairs st := accounted_of_reaches (accounted_start s) h
  refine ⟨run, hrun, hsettles.clean_iff, hsettles.findings_iff, hsettles.choked_iff, ?_,
    ⟨last, hreach, hends, ?_⟩, ?_, ?_⟩
  . intro st hst
    have h := hstates st hst
    refine ⟨?_, h.rest_eq⟩
    rw [← h.budget_eq]
    exact st.found.length_le
  . cases hends <;> rfl
  . intro hle
    cases hsettles with
    | drained _ _ hall => exact hall
    | choked hlt => omega
  . intro hlt
    cases hsettles with
    | drained hle => omega
    | choked _ houtcome hover hbefore =>
      refine ⟨hover, hbefore, ?_⟩
      intro find' t htake hfind
      obtain ⟨run', hrun', hsettles', _⟩ := ofSchedule?_settles find' budget t hroom
      rw [hrun']
      congr 1
      exact eq_of_settles budget (.choked hlt houtcome hover hbefore) hsettles' hlt htake hfind

def sampleMatcher : Matcher Nat Unit :=
  fun unit _ =>
    match unit with
    | 0 => .ok [[], [⟨⟨"/p/a.rs"⟩, 1, 1⟩]]
    | 1 => .error "no location"
    | _ => .ok [[⟨⟨"/p/b.rs"⟩, 1, 1⟩, ⟨⟨"/p/b.rs"⟩, 2, 5⟩]]

def sampleSchedule : Schedule Nat Unit :=
  ⟨[0, 1, 2, 3], [0, 1, 2, 3].map fun unit => ⟨unit, "rule", (), "found"⟩⟩

theorem budget_law_sample
    : canReserve ⟨2, by decide⟩ = true
        ∧ ∃ run, ofSchedule? sampleMatcher ⟨2, by decide⟩ sampleSchedule = some run
          ∧ run.outcome = .choked
            [⟨some ⟨⟨"/p/a.rs"⟩, 1, 1⟩, "found"⟩, ⟨none, "no location"⟩]
          ∧ run.evaluated = 3 := by
  have hroom : canReserve ⟨2, by decide⟩ = true := by decide
  obtain ⟨run, hrun, _, _, hchoked, _, _, _, hlaw⟩ :=
    budget_law sampleMatcher ⟨2, by decide⟩ sampleSchedule hroom
  obtain ⟨hover, hbefore, _⟩ := hlaw (by decide)
  refine ⟨hroom, run, hrun, hchoked.2 (by decide), ?_⟩
  have hle : run.evaluated ≤ 3 := by
    apply Nat.le_of_not_lt
    intro hlt
    exact absurd (hbefore 3 hlt) (by decide)
  have hge : 3 ≤ run.evaluated := by
    apply Nat.le_of_not_lt
    intro hlt
    have := findings_take_length_le sampleMatcher sampleSchedule.pairs (Nat.le_of_lt_succ hlt)
    exact absurd (Nat.lt_of_lt_of_le hover this) (by decide)
  exact Nat.le_antisymm hle hge

end Outcomes

end Run

end PatternLint
