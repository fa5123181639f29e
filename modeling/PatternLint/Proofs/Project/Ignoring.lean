import PatternLint.Project
import PatternLint.Proofs.Run.Budget
import PatternLint.Proofs.Schedule.Ignoring
import PatternLint.Proofs.Source.Agreement

/-!
This module contains the law of ignoring: if a configuration leaves out one more path, what is found
is the same as before without the diagnostics in files at or below the path.
-/

namespace PatternLint

def Diagnostic.isIn (base : Path) (d : Diagnostic) : Bool :=
  d.position.any fun position => base.covers position.file

def ParsedFile.findings (checker : Checker NodePattern) (file : ParsedFile) : List Diagnostic :=
  (file.find checker.pattern).map fun position => ⟨some position, checker.message⟩

theorem ParsedFile.isIn_of_mem_findings {checker : Checker NodePattern} {file : ParsedFile}
    {d : Diagnostic} (h : d ∈ file.findings checker) (base : Path)
    : d.isIn base = base.covers file.path := by
  unfold ParsedFile.findings ParsedFile.find at h
  rw [List.map_map, List.mem_map] at h
  obtain ⟨location, _, rfl⟩ := h
  rfl

theorem ParsedFile.filter_findings (checker : Checker NodePattern) (file : ParsedFile) (base : Path)
    : (file.findings checker).filter (fun d => !d.isIn base)
        =
      if base.covers file.path then [] else file.findings checker := by
  split
  . next hcovers =>
    rw [List.filter_eq_nil_iff]
    intro d hd
    simp [ParsedFile.isIn_of_mem_findings hd, hcovers]
  . next hcovers =>
    rw [List.filter_eq_self]
    intro d hd
    simp [ParsedFile.isIn_of_mem_findings hd, hcovers]

theorem checkFindings_matcher (unit : SourceUnit) (checker : Checker NodePattern)
    : checkFindings SourceUnit.matcher unit checker
        =
      unit.files.flatMap fun file => file.findings checker := by
  unfold checkFindings SourceUnit.matcher ParsedFile.findings
  dsimp
  rw [← List.flatMap_def, List.flatMap_singleton', List.map_flatMap]

namespace Sources

def planFindings (sources : Sources) (plan : Plan NodePattern) : List Diagnostic :=
  plan.flatMap fun planned =>
    planned.2.checkers.flatMap fun checker =>
      (planned.1.files.filterMap sources.file?).flatMap fun file => file.findings checker

theorem findings_ofPlan (tree : FileTree) (sources : Sources) (plan : Plan NodePattern)
    : findings SourceUnit.matcher (Schedule.ofPlan (sources.provider tree) plan).pairs
        =
      sources.planFindings plan := by
  rw [Schedule.pairs_ofPlan]
  unfold planFindings
  induction plan with
  | nil => rfl
  | cons planned plan ih =>
    rw [List.flatMap_cons, List.flatMap_cons, findings_append, ih]
    congr 1
    rw [unit?_provider]
    cases hunit : sources.unitOf? (planned.1.files.filterMap sources.file?) with
    | none =>
      rw [unitOf?_eq_none_iff] at hunit
      rw [hunit]
      simp
    | some unit =>
      dsimp
      rw [← files_of_unitOf? hunit]
      induction planned.2.checkers with
      | nil => rfl
      | cons checker checkers ih =>
        rw [List.map_cons, findings_cons, ih, checkFindings_matcher, List.flatMap_cons]

section Without

variable {sources fewer : Sources} {path : Path}

theorem flatMap_findings_without (hsame : ∀ p, path.covers p = false → fewer.file? p = sources.file? p)
    (hpath : ∀ p file, sources.file? p = some file → file.path.components = p.components)
    (checker : Checker NodePattern) (files : List Path)
    : ((files.filter fun p => !path.covers p).filterMap fewer.file?).flatMap
          (fun file => file.findings checker)
        =
      ((files.filterMap sources.file?).flatMap fun file => file.findings checker).filter
        fun d => !d.isIn path := by
  induction files with
  | nil => rfl
  | cons p files ih =>
    rw [List.filter_cons, List.filterMap_cons]
    cases hfile : sources.file? p with
    | none =>
      rw [← ih]
      split
      . next hkept =>
        rw [Bool.not_eq_true'] at hkept
        rw [List.filterMap_cons, hsame p hkept, hfile]
      . rfl
    | some file =>
      have hcovers : path.covers file.path = path.covers p := Path.covers_congr (hpath p file hfile)
      dsimp
      rw [List.flatMap_cons, List.filter_append, ParsedFile.filter_findings, hcovers, ← ih]
      split
      . next hkept =>
        rw [Bool.not_eq_true'] at hkept
        rw [List.filterMap_cons, hsame p hkept, hfile, hkept]
        rfl
      . next hcovered =>
        rw [Bool.not_eq_true', Bool.not_eq_false] at hcovered
        rw [hcovered]
        rfl

theorem files_without? (path : Path) (request : UnitRequest)
    : (request.without? path).elim [] UnitRequest.files
        =
      request.files.filter fun p => !path.covers p := by
  cases request with
  | file p =>
    dsimp [UnitRequest.without?, UnitRequest.files]
    rw [List.filter_cons]
    cases path.covers p <;> rfl
  | package directory files =>
    dsimp [UnitRequest.without?, UnitRequest.files]
    split
    . next hnone =>
      rw [List.isEmpty_iff.1 hnone]
      rfl
    . rfl

theorem planFindings_without (hsame : ∀ p, path.covers p = false → fewer.file? p = sources.file? p)
    (hpath : ∀ p file, sources.file? p = some file → file.path.components = p.components)
    (plan : Plan NodePattern)
    : fewer.planFindings (plan.without path)
        =
      (sources.planFindings plan).filter fun d => !d.isIn path := by
  induction plan with
  | nil => rfl
  | cons planned plan ih =>
    have hfiles := files_without? path planned.1
    -- each check of the request finds what it found before in the files that are left
    have hfirst : planned.2.checkers.flatMap (fun checker =>
          ((planned.1.files.filter fun p => !path.covers p).filterMap fewer.file?).flatMap
            fun file => file.findings checker)
        = (planned.2.checkers.flatMap fun checker =>
          (planned.1.files.filterMap sources.file?).flatMap fun file => file.findings checker).filter
            fun d => !d.isIn path := by
      rw [List.filter_flatMap]
      congr 1
      funext checker
      apply flatMap_findings_without hsame hpath
    unfold planFindings Plan.without at ih ⊢
    rw [List.flatMap_cons, List.filter_append, ← ih, ← hfirst, ← hfiles, List.filterMap_cons]
    cases planned.1.without? path with
    | none => simp
    | some request => rfl

end Without

end Sources

namespace Project

theorem prepare_eq_ok_iff {tree : FileTree} {root : Path} {c : Config} {project : Project}
    : prepare tree root c = .ok project
        ↔
      Policy.resolve compileNodePattern tree root c = .ok project.policy
        ∧ Sources.load tree root project.policy.ignored = .ok project.sources
        ∧ Schedule.ofProject project.policy (project.sources.provider tree)
          = .ok project.schedule := by
  unfold prepare
  simp only [bind_eq_ok_iff, mapError_eq_ok_iff]
  constructor
  . rintro ⟨policy, hpolicy, sources, hsources, schedule, hschedule, h⟩
    cases h
    exact ⟨hpolicy, hsources, hschedule⟩
  . rintro ⟨hpolicy, hsources, hschedule⟩
    exact ⟨_, hpolicy, _, hsources, _, hschedule, rfl⟩

theorem isTreeAt_of_walkOf {policy : Policy NodePattern} {tree : FileTree}
    {entries : List (Path × ByteArray)} (htree : tree.IsProper)
    (hwalk : Sources.walkOf tree policy.root policy.ignored = .ok entries)
    (hkept : policy.isIgnored policy.root = false)
    : (Listing.ofPath tree policy.root).IsTreeAt policy.root := by
  unfold Sources.walkOf at hwalk
  unfold Policy.isIgnored at hkept
  rw [if_neg (by simp [hkept])] at hwalk
  unfold sourcesFrom at hwalk
  cases hstart : WalkStart.find tree policy.root with
  | error e =>
    rw [hstart] at hwalk
    contradiction
  | ok start => exact isTreeAt_ofPath htree hstart

theorem prepare_with {tree : FileTree} {root path : Path} {c : Config} {before after : List String}
    {text : String} {project : Project} (htree : tree.IsProper)
    (hignored : c.ignored = before ++ after) (hpath : projectPath tree root text = .ok path)
    (h : prepare tree root c = .ok project)
    : ∃ project', prepare tree root { c with ignored := before ++ text :: after } = .ok project'
        ∧ project'.policy.budget = project.policy.budget
        ∧ findings SourceUnit.matcher project'.schedule.pairs
          = (findings SourceUnit.matcher project.schedule.pairs).filter
            fun d => !d.isIn path := by
  obtain ⟨hpolicy, hload, hschedule⟩ := prepare_eq_ok_iff.1 h
  obtain ⟨more, hpolicy', hwith⟩ := Policy.resolve_with hpath hignored hpolicy
  have hroot := (Policy.resolve_eq_ok_iff.1 hpolicy).1
  have hbelow := isPrefix_of_projectPath hpath
  obtain ⟨entries, hwalk, hparses, hsources⟩ := Sources.load_eq_ok_iff.1 hload
  subst hroot
  have hnodup := Sources.nodup_walkOf htree hwalk
  have hwalk' := Sources.walkOf_with htree hwith hbelow hwalk
  have hparses' : Sources.Parses (entries.filter fun entry => !path.covers entry.1) := by
    intro entry hentry
    exact hparses entry (List.mem_of_mem_filter hentry)
  obtain ⟨plan, hplan, hplan'⟩ :=
    Plan.ofProject_with isSourcePath hwith hbelow (isTreeAt_of_walkOf htree hwalk)
  let sources' := Sources.ofWalk project.policy.root
    (entries.filter fun entry => !path.covers entry.1)
  refine ⟨⟨{ project.policy with ignored := more }, sources',
    Schedule.ofPlan (sources'.provider tree) (plan.without path)⟩, ?_, rfl, ?_⟩
  . refine prepare_eq_ok_iff.2 ⟨hpolicy', ?_, ?_⟩
    . exact Sources.load_eq_ok_iff.2 ⟨_, hwalk', hparses', rfl⟩
    . rw [Schedule.ofProject_eq_plan]
      exact congrArg (Except.map _) hplan'
  . have hplanned : project.schedule = Schedule.ofPlan (project.sources.provider tree) plan := by
      rw [Schedule.ofProject_eq_plan] at hschedule
      have := congrArg (Except.map (Schedule.ofPlan (project.sources.provider tree))) hplan
      exact Except.ok.inj (hschedule.symm.trans this)
    dsimp only
    rw [hplanned, Sources.findings_ofPlan, Sources.findings_ofPlan, Sources.planFindings_without]
    . intro p hout
      rw [hsources]
      exact Sources.file?_filter hparses hnodup hout
    . intro p file hfile
      rw [hsources] at hfile
      exact Sources.path_of_file? hparses hnodup hfile

/--
The law of ignoring. If a project can be checked, then it can be checked as well if one more path is
left out. Unless more was found than the budget allows, the diagnostics are then those of before, in
their order, without the ones in files at or below that path.
-/
theorem run_ignoring (system : FileSystem) (root path : Path) (c : Config) (before after : List String)
    (text : String) (project : Project) (run : Run) (hignored : c.ignored = before ++ after)
    (hpath : projectPath system.tree root text = .ok path)
    (hprepare : prepare system.tree root c = .ok project) (hrun : project.run? = some run)
    : ∃ project' run',
        prepare system.tree root { c with ignored := before ++ text :: after } = .ok project'
          ∧ project'.run? = some run'
          ∧ ((findings SourceUnit.matcher project.schedule.pairs).length
              ≤ project.policy.budget.limit →
            run'.outcome.diagnostics = run.outcome.diagnostics.filter fun d => !d.isIn path) := by
  obtain ⟨project', hprepare', hbudget, hfindings⟩ := prepare_with system.proper hignored hpath hprepare
  obtain ⟨hroom, hsettles⟩ := Run.settles_of_ofSchedule? hrun
  rw [← hbudget] at hroom
  obtain ⟨run', hrun', hsettles', _⟩ :=
    Run.ofSchedule?_settles SourceUnit.matcher project'.policy.budget project'.schedule hroom
  refine ⟨project', run', hprepare', hrun', ?_⟩
  intro hle
  -- less is found than before, so the budget is enough for it as well
  have hle' : (findings SourceUnit.matcher project'.schedule.pairs).length
      ≤ project'.policy.budget.limit := by
    rw [hfindings, hbudget]
    exact Nat.le_trans (List.length_filter_le _ _) hle
  rw [hsettles.diagnostics_eq hle, hsettles'.diagnostics_eq hle', hfindings]

section Sample

def sampleSystem : FileSystem :=
  ⟨.directory [("p", .directory [("one.rs", .file "struct A;".toUTF8),
    ("src", .directory [("two.rs", .file "struct B;".toUTF8)])])], by decide⟩

def sampleConfig : Config :=
  { Config.empty with checkers := [⟨"no-structs", "struct", "found"⟩] }

theorem prepare_sample
    : ∃ project run, prepare sampleSystem.tree ⟨"/p"⟩ sampleConfig = .ok project
        ∧ project.run? = some run
        ∧ (findings SourceUnit.matcher project.schedule.pairs).length ≤ project.policy.budget.limit
        ∧ run.outcome.diagnostics
          = [⟨some ⟨⟨"/p/src/two.rs"⟩, 1, 8⟩, "found"⟩, ⟨some ⟨⟨"/p/one.rs"⟩, 1, 8⟩, "found"⟩] := by
  have hall
      : ((prepare sampleSystem.tree ⟨"/p"⟩ sampleConfig).toOption.bind fun project =>
          project.run?.map fun run =>
            (decide ((findings SourceUnit.matcher project.schedule.pairs).length
              ≤ project.policy.budget.limit), run.outcome.diagnostics))
        = some (true, [⟨some ⟨⟨"/p/src/two.rs"⟩, 1, 8⟩, "found"⟩,
          ⟨some ⟨⟨"/p/one.rs"⟩, 1, 8⟩, "found"⟩]) := by
    decide +kernel
  rw [Option.bind_eq_some_iff] at hall
  obtain ⟨project, hprepare, hall⟩ := hall
  rw [Option.map_eq_some_iff] at hall
  obtain ⟨run, hrun, hall⟩ := hall
  injection hall with hle hfound
  refine ⟨project, run, ?_, hrun, of_decide_eq_true hle, hfound⟩
  generalize prepare sampleSystem.tree ⟨"/p"⟩ sampleConfig = result at hprepare ⊢
  cases result with
  | error e => contradiction
  | ok other =>
    injection hprepare with hprepare
    rw [hprepare]

theorem projectPath_sample : projectPath sampleSystem.tree ⟨"/p"⟩ "src" = .ok ⟨"/p/src"⟩ := by
  rfl

theorem run_ignoring_sample
    : ∃ project run, sampleConfig.ignored = [] ++ []
        ∧ projectPath sampleSystem.tree ⟨"/p"⟩ "src" = .ok ⟨"/p/src"⟩
        ∧ prepare sampleSystem.tree ⟨"/p"⟩ sampleConfig = .ok project ∧ project.run? = some run
        ∧ ∃ project' run',
          prepare sampleSystem.tree ⟨"/p"⟩ { sampleConfig with ignored := ["src"] } = .ok project'
            ∧ project'.run? = some run'
            ∧ run'.outcome.diagnostics = [⟨some ⟨⟨"/p/one.rs"⟩, 1, 8⟩, "found"⟩] := by
  obtain ⟨project, run, hprepare, hrun, hle, hfound⟩ := prepare_sample
  obtain ⟨project', run', hprepare', hrun', hdiagnostics⟩ :=
    run_ignoring sampleSystem ⟨"/p"⟩ ⟨"/p/src"⟩ sampleConfig [] [] "src" project run
      rfl projectPath_sample hprepare hrun
  refine ⟨project, run, rfl, projectPath_sample, hprepare, hrun, project', run',
    hprepare', hrun', ?_⟩
  rw [hdiagnostics hle, hfound]
  decide

end Sample

end Project

end PatternLint
