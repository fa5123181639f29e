import Mathlib.Algebra.Group.Nat.Defs
import PatternLint.Proofs.Command.Result

/-!
This module contains the law of the room for diagnostics: which budgets there is room for, what becomes of a
check with any other budget, and that a budget for more than there is to be found is no limit at all.
-/

namespace PatternLint

variable {U P : Type}

theorem Budget.ofNat?_eq_some_iff {limit : Nat} {budget : Budget}
    : Budget.ofNat? limit = some budget ↔ budget.limit = limit := by
  unfold Budget.ofNat?
  split
  . next hpos =>
    rw [Option.some.injEq]
    constructor
    . rintro rfl
      rfl
    . rintro rfl
      rfl
  . next hzero =>
    have := budget.limit_pos
    simp only [reduceCtorEq, false_iff]
    omega

theorem Policy.resolve_choke (compile : PatternCompiler P) (tree : FileTree) (root : Path) (c : Config)
    {limit : Nat} {budget : Budget} (h : Budget.ofNat? limit = some budget)
    : Policy.resolve compile tree root { c with choke := some limit }
        =
      (Policy.resolve compile tree root { c with choke := none }).map fun policy => { policy with budget } := by
  have hbudget : ({ c with choke := some limit } : Config).budget? = some budget := h
  have hnone : ({ c with choke := none } : Config).budget? = some .standard := rfl
  unfold Policy.resolve
  rw [hbudget, hnone]
  dsimp only [bind, Except.bind]
  cases resolveCheckers compile c.checkers with
  | error e => rfl
  | ok registry =>
    dsimp only
    cases resolveIgnored tree root c.ignored with
    | error e => rfl
    | ok ignored =>
      dsimp only
      cases (c.selection.apply registry).mapError (PolicyError.selection globalScope) with
      | error e => rfl
      | ok global =>
        dsimp only
        cases resolveOverrides tree root registry c.overrides with
        | error e => rfl
        | ok overrides => rfl

namespace Run

theorem canReserve_iff {budget : Budget} : canReserve budget = true ↔ budget.limit < 2 ^ 57 := by
  have hsize : UInt64.size = 2 ^ 64 := by
    rfl
  unfold canReserve recordSize maxReservation
  rw [decide_eq_true_iff, hsize]
  omega

variable {find : Matcher U P} {budget : Budget} {s : Schedule U P} {run : Run}

theorem exists_ofSchedule?_iff : (∃ run, ofSchedule? find budget s = some run) ↔ budget.limit < 2 ^ 57 := by
  rw [← canReserve_iff]
  constructor
  . rintro ⟨run, hrun⟩
    exact (settles_of_ofSchedule? hrun).1
  . intro hroom
    obtain ⟨run, hrun, _⟩ := ofSchedule?_settles find budget s hroom
    exact ⟨run, hrun⟩

theorem Settles.outcome_cases {checks : List (U × Checker P)} (h : Settles find budget checks run)
    : run.outcome = .clean ∨ run.outcome = .findings (findings find checks)
        ∨ run.outcome = .choked ((findings find checks).take budget.limit) := by
  cases h with
  | drained _ houtcome =>
    rw [houtcome]
    split
    . exact .inl rfl
    . exact .inr (.inl rfl)
  | choked _ houtcome => exact .inr (.inr houtcome)

theorem Settles.eq_of_findings_le {checks : List (U × Checker P)} (h : Settles find budget checks run)
    (hle : (findings find checks).length ≤ budget.limit)
    : run = ⟨if findings find checks = [] then .clean else .findings (findings find checks), checks.length⟩ := by
  cases h with
  | drained _ houtcome hall => rw [← houtcome, ← hall]
  | choked hlt => omega

end Run

namespace Command

theorem InForce.unique {s : Surroundings} {o : CheckOptions} {root : Path} {c c' : Config}
    (h : InForce s o root c) (h' : InForce s o root c') : c = c' := by
  obtain ⟨source, read, hfirst, hgives, rfl⟩ := h
  obtain ⟨source', read', hfirst', hgives', rfl⟩ := h'
  rw [ConfigSource.isFirst_iff_find_eq] at hfirst hfirst'
  rw [hfirst] at hfirst'
  subst hfirst'
  rw [ConfigSource.gives_iff] at hgives hgives'
  rw [hgives] at hgives'
  cases hgives'
  rfl

theorem Succeeds.budget_eq {s : Surroundings} {o : CheckOptions} {root : Path} {p : Project} {c : Config}
    {limit : Nat} (h : Succeeds s o root p) (hforce : InForce s o root c) (hchoke : c.choke = some limit)
    : Budget.ofNat? limit = some p.policy.budget := by
  obtain ⟨c', hforce', hpolicy⟩ := h.policy
  rw [hforce'.unique hforce] at hpolicy
  have hbudget := (Policy.resolve_eq_ok_iff.1 hpolicy).2.1
  unfold Config.budget? at hbudget
  rwa [hchoke] at hbudget

theorem ofCheck_of_noRoom {s : Surroundings} {o : CheckOptions} {root : Path} {p : Project}
    (h : Succeeds s o root p) (hroom : Run.canReserve p.policy.budget = false)
    : Reply.ofCheck s o = ⟨101, "", some "Error: capacity overflow"⟩ := by
  obtain ⟨hroot, read, hread, hproject⟩ := succeeds_iff.1 h
  have hrun : p.run? = none := by
    unfold Project.run? Run.ofSchedule?
    rw [hroom]
    rfl
  have hcheck : check s o = .error .noRoom := by
    rw [check_eq, hroot]
    dsimp only [bind, Except.bind, Except.mapError]
    rw [hread]
    dsimp only
    rw [hproject]
    dsimp only
    rw [hrun]
  unfold Reply.ofCheck
  rw [hcheck]
  rfl

theorem status_of_room {s : Surroundings} {o : CheckOptions} {root : Path} {p : Project}
    (h : Succeeds s o root p) (hroom : Run.canReserve p.policy.budget = true)
    : (Reply.ofCheck s o).status = 0 ∨ (Reply.ofCheck s o).status = 1 := by
  rw [ofCheck_of_succeeds h hroom]
  dsimp only
  split
  . exact .inl rfl
  . exact .inr rfl

/--
There is room for the diagnostics of a budget exactly if it is below `2 ^ 57`. Every run within such a budget
ends with an outcome, and does not depend on the budget if it finds no more than that. Larger budgets are
admitted as well: no stage before the run looks at the size of a choke, and the check then ends without one.
-/
theorem room_for_budgets (find : Matcher U P) (schedule : Schedule U P) {limit : Nat} {budget : Budget}
    (h : Budget.ofNat? limit = some budget)
    : ((∃ run, Run.ofSchedule? find budget schedule = some run) ↔ limit < 2 ^ 57)
        ∧ (∀ run, Run.ofSchedule? find budget schedule = some run →
          run.outcome = .clean ∨ run.outcome = .findings (findings find schedule.pairs)
            ∨ run.outcome = .choked ((findings find schedule.pairs).take limit))
        ∧ (∀ run, Run.ofSchedule? find budget schedule = some run →
          (findings find schedule.pairs).length ≤ limit →
            run.outcome.diagnostics = findings find schedule.pairs
              ∧ run.evaluated = schedule.pairs.length
              ∧ ∀ other : Budget, limit ≤ other.limit → other.limit < 2 ^ 57 →
                Run.ofSchedule? find other schedule = some run)
        ∧ (∀ (compile : PatternCompiler P) (tree : FileTree) (root : Path) (c : Config),
          Policy.resolve compile tree root { c with choke := some limit }
            = (Policy.resolve compile tree root { c with choke := none }).map
              fun policy => { policy with budget })
        ∧ ∀ s o root c p, InForce s o root c → c.choke = some limit → Succeeds s o root p →
          (limit < 2 ^ 57 → (Reply.ofCheck s o).status = 0 ∨ (Reply.ofCheck s o).status = 1)
            ∧ (2 ^ 57 ≤ limit → Reply.ofCheck s o = ⟨101, "", some "Error: capacity overflow"⟩) := by
  obtain rfl := Budget.ofNat?_eq_some_iff.1 h
  refine ⟨Run.exists_ofSchedule?_iff, ?_, ?_, ?_, ?_⟩
  . intro run hrun
    exact (Run.settles_of_ofSchedule? hrun).2.outcome_cases
  . intro run hrun hle
    have hsettles := (Run.settles_of_ofSchedule? hrun).2
    have hrun := hsettles.eq_of_findings_le hle
    refine ⟨hsettles.diagnostics_eq hle, by rw [hrun], ?_⟩
    intro other hother hroom
    have hroom : ∃ run', Run.ofSchedule? find other schedule = some run' :=
      Run.exists_ofSchedule?_iff.2 hroom
    obtain ⟨run', hrun'⟩ := hroom
    have hsame := (Run.settles_of_ofSchedule? hrun').2.eq_of_findings_le (Nat.le_trans hle hother)
    rw [hrun', hsame, ← hrun]
  . intro compile tree root c
    exact Policy.resolve_choke compile tree root c h
  . intro s o root c p hforce hchoke hsucceeds
    have hbudget := Option.some.inj (h.symm.trans (hsucceeds.budget_eq hforce hchoke))
    constructor
    . intro hlt
      apply status_of_room hsucceeds
      rwa [← hbudget, Run.canReserve_iff]
    . intro hle
      apply ofCheck_of_noRoom hsucceeds
      rw [← hbudget, Bool.eq_false_iff, Ne, Run.canReserve_iff]
      omega

theorem room_for_budgets_sample
    : Budget.ofNat? (2 ^ 57 - 1) = some ⟨2 ^ 57 - 1, by decide⟩
        ∧ ∃ run, Run.ofSchedule? Run.sampleMatcher ⟨2 ^ 57 - 1, by decide⟩ Run.sampleSchedule = some run
          ∧ run.outcome.diagnostics = findings Run.sampleMatcher Run.sampleSchedule.pairs
          ∧ run.outcome.diagnostics.length = 6
          ∧ run.evaluated = 4 := by
  have hbudget : Budget.ofNat? (2 ^ 57 - 1) = some ⟨2 ^ 57 - 1, by decide⟩ := by
    rfl
  obtain ⟨hroom, _, hall, _⟩ := room_for_budgets Run.sampleMatcher Run.sampleSchedule hbudget
  obtain ⟨run, hrun⟩ := hroom.2 (by decide)
  obtain ⟨hdiagnostics, hevaluated, _⟩ := hall run hrun (by decide)
  exact ⟨hbudget, run, hrun, hdiagnostics, by rw [hdiagnostics]; rfl, hevaluated⟩

theorem admitted_without_room
    : Budget.ofNat? (2 ^ 57) = some ⟨2 ^ 57, by decide⟩
        ∧ Run.ofSchedule? Run.sampleMatcher ⟨2 ^ 57, by decide⟩ .empty = none
        ∧ Reply.ofArguments (inProject "" []) ["check", "--root", "/p", "--choke", "144115188075855872"]
          = ⟨101, "", some "Error: capacity overflow"⟩
        ∧ Reply.ofArguments (inProject "choke = 144115188075855872" []) ["check", "--root", "/p"]
          = ⟨101, "", some "Error: capacity overflow"⟩ := by
  refine ⟨rfl, rfl, ?_, ?_⟩
  . decide +kernel
  . decide +kernel

end Command

end PatternLint
