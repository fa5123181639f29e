import PatternLint.Proofs.Policy.Withdrawing
import PatternLint.Proofs.Run.Budget
import PatternLint.Proofs.Schedule.Plan

/-!
This module contains the law of independence: if a configuration loses a checker, what is found is the
same as before without what that checker found. The other checkers look at the same units in the same
order, although the units that only the lost one looked at are gone.
-/

namespace PatternLint

variable {U P : Type}

def attributed (find : Matcher U P) (checks : List (U × Checker P)) :
    List ((U × Checker P) × Diagnostic) :=
  checks.flatMap fun check => (checkFindings find check.1 check.2).map fun d => (check, d)

section Attributed

variable (find : Matcher U P) (checks : List (U × Checker P))

theorem map_attributed : (attributed find checks).map Prod.snd = findings find checks := by
  induction checks with
  | nil => rfl
  | cons check checks ih =>
    unfold attributed at ih ⊢
    rw [List.flatMap_cons, List.map_append, ih, findings_cons, List.map_map]
    congr 1
    apply List.map_id

theorem attributed_filter (keep : U × Checker P → Bool)
    : attributed find (checks.filter keep) = (attributed find checks).filter fun found => keep found.1 := by
  induction checks with
  | nil => rfl
  | cons check checks ih =>
    unfold attributed at ih ⊢
    rw [List.flatMap_cons, List.filter_append, ← ih, List.filter_map, List.filter_cons]
    -- all diagnostics of a check are kept, or none
    cases hkeep : keep check with
    | true => simp [Function.comp_def, hkeep]
    | false => simp [Function.comp_def, hkeep]

end Attributed

variable {name : String}

namespace Plan

def withdraw (name : String) (plan : Plan P) : Plan P :=
  plan.map fun planned => (planned.1, planned.2.withdraw name)

theorem withdraw_append (plan others : Plan P)
    : (plan ++ others).withdraw name = plan.withdraw name ++ others.withdraw name := by
  apply List.map_append

section Walk

variable (policy : Policy P) (isSource : Path → Bool)

theorem plainFiles_withdraw (entries : List ListedEntry)
    : plainFiles (policy.withdraw name) isSource entries = plainFiles policy isSource entries := by
  induction entries with
  | nil => rfl
  | cons entry entries ih =>
    cases entry with
    | file path =>
      rw [plainFiles, plainFiles, ih, Policy.overrideFor?_withdraw, Option.isNone_map]
      rfl
    | directory path listing => exact ih

theorem ofPlain_withdraw (directory : Path) (plain : List Path)
    : ofPlain (policy.withdraw name) directory plain = (ofPlain policy directory plain).withdraw name := by
  unfold ofPlain
  rw [Policy.checkersFor_withdraw]
  split <;> rfl

mutual

theorem ofListing_withdraw (directory : Path) (listing : Listing)
    : ofListing (policy.withdraw name) isSource directory listing
        =
      (ofListing policy isSource directory listing).map (withdraw name) := by
  cases listing with
  | failed e => rfl
  | entries children =>
    rw [ofListing, ofListing, ofEntries_withdraw, plainFiles_withdraw, ofPlain_withdraw]
    cases ofEntries policy isSource children with
    | error e => rfl
    | ok plan => exact congrArg Except.ok (withdraw_append ..).symm

theorem ofEntries_withdraw (entries : List ListedEntry)
    : ofEntries (policy.withdraw name) isSource entries
        =
      (ofEntries policy isSource entries).map (withdraw name) := by
  cases entries with
  | nil => rfl
  | cons entry entries =>
    rw [ofEntries, ofEntries, ofEntry_withdraw, ofEntries_withdraw]
    cases ofEntry policy isSource entry with
    | error e => rfl
    | ok first =>
      cases ofEntries policy isSource entries with
      | error e => rfl
      | ok rest => exact congrArg Except.ok (withdraw_append ..).symm

theorem ofEntry_withdraw (entry : ListedEntry)
    : ofEntry (policy.withdraw name) isSource entry
        =
      (ofEntry policy isSource entry).map (withdraw name) := by
  cases entry with
  | file path =>
    rw [ofEntry, ofEntry, Policy.overrideFor?_withdraw]
    change (if policy.admits isSource ⟨path, false⟩ then _ else _) = _
    split
    . cases policy.overrideFor? path <;> rfl
    . rfl
  | directory path listing =>
    rw [ofEntry, ofEntry]
    change (if policy.admits isSource ⟨path, true⟩ then _ else _) = _
    split
    . apply ofListing_withdraw
    . rfl

end

theorem ofProject_withdraw (listing : Listing)
    : ofProject (policy.withdraw name) isSource listing
        =
      (ofProject policy isSource listing).map (withdraw name) := by
  unfold ofProject
  rw [ofListing_withdraw]
  change (if policy.isIgnored policy.root then _ else _) = _
  split <;> rfl

end Walk

end Plan

namespace Schedule

variable (policy : Policy P) (provider : Provider U)

theorem pairs_withdraw (plan : Plan P)
    : (ofPlan provider (plan.withdraw name)).pairs
        =
      (ofPlan provider plan).pairs.filter fun check => check.2.name ≠ name := by
  rw [pairs_ofPlan, pairs_ofPlan, Plan.withdraw, List.flatMap_map, List.filter_flatMap]
  congr 1
  funext planned
  dsimp only
  cases provider.unit? planned.1 with
  | none => rfl
  | some unit =>
    dsimp only
    rw [CheckerSet.checkers_withdraw, List.filter_map]
    rfl

theorem ofProject_withdraw_eq_error_iff {e : LoadError}
    : ofProject (policy.withdraw name) provider = .error e ↔ ofProject policy provider = .error e := by
  rw [ofProject_eq_plan, ofProject_eq_plan, map_eq_error_iff, map_eq_error_iff, Plan.ofProject_withdraw]
  exact map_eq_error_iff

theorem ofProject_withdraw {s : Schedule U P} (h : ofProject policy provider = .ok s)
    : ∃ s', ofProject (policy.withdraw name) provider = .ok s'
        ∧ s'.pairs = s.pairs.filter fun check => check.2.name ≠ name := by
  rw [ofProject_eq_plan] at h
  obtain ⟨plan, hplan, rfl⟩ := map_eq_ok_iff.1 h
  refine ⟨ofPlan provider (plan.withdraw name), ?_, pairs_withdraw provider plan⟩
  rw [ofProject_eq_plan, map_eq_ok_iff]
  refine ⟨plan.withdraw name, ?_, rfl⟩
  exact (Plan.ofProject_withdraw ..).trans (map_eq_ok_iff.2 ⟨plan, hplan, rfl⟩)

end Schedule

theorem Run.ofSchedule?_withdraw {find : Matcher U P} {budget : Budget} {s s' : Schedule U P} {run : Run}
    (hpairs : s'.pairs = s.pairs.filter fun check => check.2.name ≠ name)
    (hrun : ofSchedule? find budget s = some run)
    (hle : (PatternLint.findings find s.pairs).length ≤ budget.limit)
    : ∃ run', ofSchedule? find budget s' = some run'
        ∧ run.outcome.diagnostics = (attributed find s.pairs).map Prod.snd
        ∧ run'.outcome.diagnostics = (attributed find s'.pairs).map Prod.snd
        ∧ attributed find s'.pairs
          = (attributed find s.pairs).filter fun found => found.1.2.name ≠ name := by
  obtain ⟨hroom, hsettles⟩ := settles_of_ofSchedule? hrun
  obtain ⟨run', hrun', hsettles', _⟩ := ofSchedule?_settles find budget s' hroom
  have hfound : attributed find s'.pairs
      = (attributed find s.pairs).filter fun found => found.1.2.name ≠ name := by
    rw [hpairs]
    apply attributed_filter
  -- less is found than before, so the budget is enough for it as well
  have hle' : (PatternLint.findings find s'.pairs).length ≤ budget.limit := by
    apply Nat.le_trans _ hle
    rw [← map_attributed, ← map_attributed, List.length_map, List.length_map, hfound]
    apply List.length_filter_le
  refine ⟨run', hrun', ?_, ?_, hfound⟩
  . rw [hsettles.diagnostics_eq hle, map_attributed]
  . rw [hsettles'.diagnostics_eq hle', map_attributed]

namespace Policy

/--
The law of independence. A configuration that makes a policy still makes one without any of its
checkers. For every provider, the schedule then has the checks of the others on the same units, and for
every matcher the run finds what these found, unless more was found than the budget allows.
-/
theorem resolve_withdrawn (compile : PatternCompiler P) (tree : FileTree) (root : Path) (c : Config)
    (name : String) (policy : Policy P) (h : Policy.resolve compile tree root c = .ok policy)
    : Policy.resolve compile tree root (c.withdraw name) = .ok (policy.withdraw name)
        ∧ ∀ (U : Type) (provider : Provider U),
          (∀ e, Schedule.ofProject (policy.withdraw name) provider = .error e
              ↔ Schedule.ofProject policy provider = .error e)
            ∧ ∀ s, Schedule.ofProject policy provider = .ok s →
              ∃ s', Schedule.ofProject (policy.withdraw name) provider = .ok s'
                ∧ s'.pairs = s.pairs.filter (fun check => check.2.name ≠ name)
                ∧ ∀ (find : Matcher U P) (run : Run),
                  Run.ofSchedule? find policy.budget s = some run →
                    (findings find s.pairs).length ≤ policy.budget.limit →
                      ∃ run', Run.ofSchedule? find (policy.withdraw name).budget s' = some run'
                        ∧ run.outcome.diagnostics = (attributed find s.pairs).map Prod.snd
                        ∧ run'.outcome.diagnostics = (attributed find s'.pairs).map Prod.snd
                        ∧ attributed find s'.pairs
                          = (attributed find s.pairs).filter fun found => found.1.2.name ≠ name := by
  refine ⟨resolve_withdraw h, ?_⟩
  intro U provider
  constructor
  . intro e
    apply Schedule.ofProject_withdraw_eq_error_iff
  . intro s hschedule
    obtain ⟨s', hschedule', hpairs⟩ := Schedule.ofProject_withdraw policy provider hschedule
    refine ⟨s', hschedule', hpairs, ?_⟩
    intro find run hrun hle
    exact Run.ofSchedule?_withdraw hpairs hrun hle

section Sample

def sampleTree : FileTree :=
  .directory [("p", .directory [("one.rs", .file .empty), ("two.rs", .file .empty)])]

def sampleConfig : Config :=
  ⟨none, [⟨"a", "", "by a"⟩, ⟨"b", "", "by b"⟩], ⟨none, none⟩, [],
    [⟨none, some "two.rs", ⟨some ["a"], none⟩⟩]⟩

def sampleProvider : Provider (List Path) where
  listing _ := .entries [.file ⟨"/p/one.rs"⟩, .file ⟨"/p/two.rs"⟩]
  isSource _ := true
  fileUnit? path := some [path]
  packageUnit? _ files := some files

def sampleMatcher : Matcher (List Path) String :=
  fun unit _ => .ok (unit.map fun file => [⟨file, 1, 1⟩])

theorem attributed_sample
    : ∃ policy s run, Policy.resolve .ok sampleTree ⟨"/p"⟩ sampleConfig = .ok policy
        ∧ Schedule.ofProject policy sampleProvider = .ok s
        ∧ Run.ofSchedule? sampleMatcher policy.budget s = some run
        ∧ (findings sampleMatcher s.pairs).length ≤ policy.budget.limit
        ∧ (attributed sampleMatcher s.pairs).map (fun found => (found.1.2.name, found.2))
          = [("a", ⟨some ⟨⟨"/p/two.rs"⟩, 1, 1⟩, "by a"⟩), ("a", ⟨some ⟨⟨"/p/one.rs"⟩, 1, 1⟩, "by a"⟩),
            ("b", ⟨some ⟨⟨"/p/one.rs"⟩, 1, 1⟩, "by b"⟩)] := by
  have hall
      : ((Policy.resolve .ok sampleTree ⟨"/p"⟩ sampleConfig).toOption.bind fun policy =>
          (Schedule.ofProject policy sampleProvider).toOption.bind fun s =>
            (Run.ofSchedule? sampleMatcher policy.budget s).map fun _ =>
              (decide ((findings sampleMatcher s.pairs).length ≤ policy.budget.limit),
                (attributed sampleMatcher s.pairs).map fun found => (found.1.2.name, found.2)))
        = some (true, [("a", ⟨some ⟨⟨"/p/two.rs"⟩, 1, 1⟩, "by a"⟩),
          ("a", ⟨some ⟨⟨"/p/one.rs"⟩, 1, 1⟩, "by a"⟩),
          ("b", ⟨some ⟨⟨"/p/one.rs"⟩, 1, 1⟩, "by b"⟩)]) := by
    decide +kernel
  obtain ⟨policy, hpolicy, hall⟩ := Option.bind_eq_some_iff.1 hall
  obtain ⟨s, hschedule, hall⟩ := Option.bind_eq_some_iff.1 hall
  obtain ⟨run, hrun, hall⟩ := Option.map_eq_some_iff.1 hall
  injection hall with hle hfound
  exact ⟨policy, s, run, toOption_eq_some_iff.1 hpolicy, toOption_eq_some_iff.1 hschedule,
    hrun, of_decide_eq_true hle, hfound⟩

theorem resolve_withdrawn_sample
    : ∃ policy s s' run run',
        Policy.resolve .ok sampleTree ⟨"/p"⟩ sampleConfig = .ok policy
          ∧ Schedule.ofProject policy sampleProvider = .ok s
          ∧ Run.ofSchedule? sampleMatcher policy.budget s = some run
          ∧ (findings sampleMatcher s.pairs).length ≤ policy.budget.limit
          ∧ run.outcome.diagnostics
            = [⟨some ⟨⟨"/p/two.rs"⟩, 1, 1⟩, "by a"⟩, ⟨some ⟨⟨"/p/one.rs"⟩, 1, 1⟩, "by a"⟩,
              ⟨some ⟨⟨"/p/one.rs"⟩, 1, 1⟩, "by b"⟩]
          ∧ Policy.resolve .ok sampleTree ⟨"/p"⟩ (sampleConfig.withdraw "a")
            = .ok (policy.withdraw "a")
          ∧ Schedule.ofProject (policy.withdraw "a") sampleProvider = .ok s'
          ∧ Run.ofSchedule? sampleMatcher (policy.withdraw "a").budget s' = some run'
          ∧ run'.outcome.diagnostics = [⟨some ⟨⟨"/p/one.rs"⟩, 1, 1⟩, "by b"⟩] := by
  obtain ⟨policy, s, run, hpolicy, hschedule, hrun, hle, hfound⟩ := attributed_sample
  obtain ⟨hpolicy', hlaw⟩ :=
    resolve_withdrawn .ok sampleTree ⟨"/p"⟩ sampleConfig "a" policy hpolicy
  obtain ⟨s', hschedule', _, hruns⟩ := (hlaw _ sampleProvider).2 s hschedule
  obtain ⟨run', hrun', hall, hothers, hfound'⟩ := hruns sampleMatcher run hrun hle
  refine ⟨policy, s, s', run, run', hpolicy, hschedule, hrun, hle, ?_, hpolicy', hschedule', hrun', ?_⟩
  . rw [hall]
    have := congrArg (List.map Prod.snd) hfound
    rw [List.map_map] at this
    exact this
  . rw [hothers, hfound']
    have := congrArg (fun found => (found.filter fun found => found.1 ≠ "a").map Prod.snd) hfound
    rw [List.filter_map, List.map_map] at this
    exact this

end Sample

end Policy

end PatternLint
