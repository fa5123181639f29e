import Mathlib.Data.List.Perm.Basic
import PatternLint.Proofs.Following
import PatternLint.Proofs.Policy.Restating
import PatternLint.Proofs.Project.Ignoring

/-!
This module contains the law of restating: an override that names the checkers which are in force
anyway, for a file or for a directory, does not change what is found. For a file, the order in which
it is found may change, because the file is then checked on its own.
-/

namespace PatternLint

open FileTree

/-! ### What stands at the targets of overrides -/

section Targets

variable {tree : FileTree} {root path : Path} {text : String}

theorem eq_of_descend {entries : List (RawText × FileTree)} {names : List RawText}
    {found other : FileTree} (htree : tree.IsProper) (hpath : projectPath tree root text = .ok path)
    (hstart : WalkStart.find tree root = .ok (.directory entries))
    (hfound : descend names (.directory entries) = some found) (hlink : ∀ target, found ≠ .link target)
    (hsame : path.components = (root.extend names).components)
    (hother : tree.resolve true path = .ok other) : other = found := by
  obtain ⟨names', rfl, hnames'⟩ := exists_names_of_projectPath hpath
  have hnames := (isProper_descend (WalkStart.isProper_find htree hstart) hfound).2
  have heq : names' = names := Path.extend_components_inj hnames' hnames hsame
  subst heq
  exact resolve_extend hnames' (WalkStart.resolve_of_find hstart) hfound hlink hother

theorem exists_directory_of_standsBelow {q : Path} {found : FileTree} (htree : tree.IsProper)
    (hpath : projectPath tree root text = .ok path) (hfile : tree.isFile path = true)
    (h : tree.StandsBelow root q found)
    : ∃ directory, q.IsChildOf directory ∧ path.components ≠ directory.components := by
  obtain ⟨entries, names, hstart, hne, hdescend, hq⟩ := h
  have hnames := (isProper_descend (WalkStart.isProper_find htree hstart) hdescend).2
  rcases List.eq_nil_or_concat names with hnil | ⟨front, last, rfl⟩
  . exact absurd hnil hne
  . rw [List.concat_eq_append] at hdescend hnames hq
    have hfront (name : RawText) (hname : name ∈ front) : Path.IsName name :=
      hnames name (List.mem_append_left _ hname)
    rw [Path.components_extend hnames, List.map_append, ← List.append_assoc,
      ← Path.components_extend hfront] at hq
    refine ⟨root.extend front, ⟨last, hq⟩, fun hsame => ?_⟩
    rw [descend_append, Option.bind_eq_some_iff] at hdescend
    obtain ⟨node, hnode, hlast⟩ := hdescend
    obtain ⟨content, hcontent⟩ := isFile_iff.1 hfile
    cases node with
    | file _ | link _ => contradiction
    | directory children =>
      have := eq_of_descend htree hpath hstart hnode (by simp) hsame hcontent
      contradiction

end Targets

/-! ### What is loaded -/

section Loaded

variable {policy : Policy NodePattern} {tree : FileTree} {sources : Sources} {path : Path}
  {text : String}

theorem standsBelow_of_file? (htree : tree.IsProper)
    (hload : Sources.load tree policy.root policy.ignored = .ok sources) {p : Path} {file : ParsedFile}
    (hfile : sources.file? p = some file)
    : ∃ content, tree.StandsBelow policy.root p (.file content)
        ∨ WalkStart.find tree policy.root = .ok (.file content)
          ∧ p.components = policy.root.components := by
  obtain ⟨entries, hwalk, hparses, rfl⟩ := Sources.load_eq_ok_iff.1 hload
  have hnodup := Sources.nodup_walkOf htree hwalk
  obtain ⟨⟨q, content⟩, hentry, _, hsame⟩ := (Sources.find?_ofWalk_eq_some_iff hparses hnodup).1 hfile
  unfold Sources.walkOf sourcesFrom at hwalk
  split at hwalk
  . cases hwalk
    contradiction
  . split at hwalk
    . contradiction
    . next children hstart =>
      cases hwalk
      rw [sourcesIn_eq_filterMap, List.mem_filterMap] at hentry
      obtain ⟨node, hnode, hregular⟩ := hentry
      rw [regularFile?_eq_some_iff] at hregular
      subst hregular
      have hstands := standsBelow_of_mem_sourceNodesIn htree hstart hnode
      exact ⟨content, .inl (standsBelow_congr hsame hstands)⟩
    . next content hstart =>
      cases hwalk
      rw [sourcesAt] at hentry
      split at hentry
      . cases List.mem_singleton.1 hentry
        exact ⟨_, .inr ⟨hstart, hsame.symm⟩⟩
      . contradiction
    . cases hwalk
      contradiction

theorem file?_eq_none_of_isDirectory (htree : tree.IsProper)
    (hload : Sources.load tree policy.root policy.ignored = .ok sources)
    (hpath : projectPath tree policy.root text = .ok path) (hdirectory : tree.isDirectory path = true)
    {p : Path} (hsame : path.components = p.components) : sources.file? p = none := by
  obtain ⟨children, hchildren⟩ := isDirectory_iff.1 hdirectory
  cases hfile : sources.file? p with
  | none => rfl
  | some file =>
    obtain ⟨content, hstands | ⟨hstart, hroot⟩⟩ := standsBelow_of_file? htree hload hfile
    . obtain ⟨entries, names, hstart, _, hdescend, hp⟩ := hstands
      have := eq_of_descend htree hpath hstart hdescend (by simp) (hsame.trans hp) hchildren
      contradiction
    . -- the root is a file, and no other path has its components
      obtain ⟨names, rfl, hnames⟩ := exists_names_of_projectPath hpath
      have hnil : names = [] := by
        rw [hroot, Path.components_extend hnames] at hsame
        simpa using hsame
      rw [hnil] at hchildren
      have hsingle := WalkStart.resolve_of_find_file hstart
      have hextend : policy.root.extend [] = policy.root := rfl
      rw [hextend, hsingle] at hchildren
      cases hchildren

end Loaded

namespace Sources

/-! ### Files that are checked on their own -/

section File

variable {sources : Sources}

def findingsAt (sources : Sources) (set : CheckerSet NodePattern) (file : Path) : List Diagnostic :=
  set.checkers.flatMap fun checker =>
    (sources.file? file).toList.flatMap fun parsed => parsed.findings checker

theorem findingsAt_of_none {file : Path} (h : sources.file? file = none)
    (set : CheckerSet NodePattern) : sources.findingsAt set file = [] := by
  unfold findingsAt
  rw [h]
  simp

theorem flatMap_findings_perm (set : CheckerSet NodePattern) (files : List Path)
    : (set.checkers.flatMap fun checker =>
          (files.filterMap sources.file?).flatMap fun file => file.findings checker).Perm
        (files.flatMap (sources.findingsAt set)) := by
  induction files with
  | nil => simp
  | cons file files ih =>
    have hcons (checker : Checker NodePattern)
        : ((file :: files).filterMap sources.file?).flatMap (fun file => file.findings checker)
          = ((sources.file? file).toList.flatMap fun parsed => parsed.findings checker)
            ++ (files.filterMap sources.file?).flatMap fun file => file.findings checker := by
      rw [List.filterMap_cons]
      cases sources.file? file <;> simp
    simp only [hcons]
    rw [List.flatMap_cons]
    exact (List.flatMap_append_perm ..).symm.trans (ih.append_left _)

theorem planFindings_perm {policy : Policy NodePattern} {plan : Plan NodePattern}
    (h : ∀ planned ∈ plan, Plan.IsFair policy planned)
    : (sources.planFindings plan).Perm
        (plan.files.flatMap fun file => sources.findingsAt (policy.inForce file) file) := by
  induction plan with
  | nil => exact List.Perm.refl _
  | cons planned plan ih =>
    rw [List.forall_mem_cons] at h
    unfold planFindings Plan.files at ih ⊢
    rw [List.flatMap_cons, List.flatMap_cons, List.flatMap_append]
    apply List.Perm.append _ (ih h.2)
    apply (flatMap_findings_perm planned.2 planned.1.files).trans
    apply List.Perm.flatMap_left
    intro file hfile
    rw [h.1.inForce file hfile]

theorem planFindings_restating_file {tree : FileTree} {policy : Policy NodePattern} {path : Path}
    {text : String} {listing : Listing} {plan plan' : Plan NodePattern} (htree : tree.IsProper)
    (hload : load tree policy.root policy.ignored = .ok sources)
    (hpath : projectPath tree policy.root text = .ok path) (hfile : tree.isFile path = true)
    (hlisting : listing.IsTreeAt policy.root) (hplan : plan.Covers policy isSourcePath listing)
    (hplan' : plan'.Covers (policy.overriding path (policy.inForce path)) isSourcePath listing)
    : (sources.planFindings plan').Perm (sources.planFindings plan) := by
  have hfiles : plan'.files.Perm plan.files := by
    rw [List.perm_ext_iff_of_nodup hplan'.nodup.of_map hplan.nodup.of_map]
    intro file
    rw [hplan'.mem_iff, hplan.mem_iff]
    -- what is seen does not depend on the overrides
    constructor <;> exact fun ⟨hlisted, hsource, hkept, hshown, hunvendored⟩ =>
      ⟨hlisted, hsource, hkept, hshown, hunvendored⟩
  have hsame (file : Path) (hmem : file ∈ plan.files)
      : sources.findingsAt ((policy.overriding path (policy.inForce path)).inForce file) file
        = sources.findingsAt (policy.inForce file) file := by
    cases hloaded : sources.file? file with
    | none => rw [findingsAt_of_none hloaded, findingsAt_of_none hloaded]
    | some parsed =>
      obtain ⟨content, hstands | ⟨_, hroot⟩⟩ := standsBelow_of_file? htree hload hloaded
      . obtain ⟨directory, hchild, hne⟩ := exists_directory_of_standsBelow htree hpath hfile hstands
        rw [policy.inForce_overriding hchild hne]
      . -- only what is below the root is listed
        have hlisted := ((hplan.mem_iff file).1 hmem).listed
        obtain ⟨name, names, hbelow⟩ := Listing.isPrefix_of_mem_files hlisting hlisted
        rw [hroot] at hbelow
        simp at hbelow
  apply (planFindings_perm hplan'.fair).trans
  apply (hfiles.flatMap_right _).trans
  rw [List.flatMap_congr hsame]
  exact (planFindings_perm hplan.fair).symm

end File

/-! ### Directories -/

section Package

variable {sources : Sources} {policy : Policy NodePattern} {isSource : Path → Bool} {path : Path}

theorem planFindings_append (plan others : Plan NodePattern)
    : sources.planFindings (plan ++ others)
        =
      sources.planFindings plan ++ sources.planFindings others := by
  apply List.flatMap_append

theorem planFindings_ofPlain (policy : Policy NodePattern) (directory : Path) (plain : List Path)
    : sources.planFindings (Plan.ofPlain policy directory plain)
        =
      (policy.checkersFor directory).checkers.flatMap fun checker =>
        (plain.filterMap sources.file?).flatMap fun file => file.findings checker := by
  unfold Plan.ofPlain planFindings
  split
  . next hnil =>
    rw [List.isEmpty_iff.1 hnil]
    simp
  . simp [UnitRequest.files]

theorem filterMap_plainFiles_restating
    (hnone : ∀ p : Path, path.components = p.components → sources.file? p = none)
    (entries : List ListedEntry)
    : (Plan.plainFiles (policy.overriding path (policy.checkersFor path)) isSource
          entries).filterMap sources.file?
        =
      (Plan.plainFiles policy isSource entries).filterMap sources.file? := by
  induction entries with
  | nil => rfl
  | cons entry entries ih =>
    cases entry with
    | directory other listing =>
      rw [Plan.plainFiles, Plan.plainFiles]
      exact ih
    | file p =>
      rw [Plan.plainFiles, Plan.plainFiles, Policy.admits_overriding, Policy.overrideFor?_overriding]
      by_cases hsame : path.components = p.components
      . rw [if_pos hsame]
        simp only [Option.isNone_some, Bool.and_false, Bool.false_eq_true, ↓reduceIte]
        split
        . rw [List.filterMap_cons_none (hnone p hsame)]
          exact ih
        . exact ih
      . rw [if_neg hsame]
        split
        . rw [List.filterMap_cons, List.filterMap_cons, ih]
        . exact ih

mutual

theorem ofListing_restating
    (hnone : ∀ p : Path, path.components = p.components → sources.file? p = none) {directory : Path}
    {listing : Listing} {plan : Plan NodePattern}
    (h : Plan.ofListing policy isSource directory listing = .ok plan)
    : ∃ plan', Plan.ofListing (policy.overriding path (policy.checkersFor path)) isSource directory
          listing = .ok plan'
        ∧ sources.planFindings plan' = sources.planFindings plan := by
  cases listing with
  | failed e => contradiction
  | entries children =>
    obtain ⟨below, hbelow, rfl⟩ := Plan.ofListing_eq_ok_iff.1 h
    obtain ⟨below', hbelow', hsame⟩ := ofEntries_restating hnone hbelow
    refine ⟨_, Plan.ofListing_eq_ok_iff.2 ⟨below', hbelow', rfl⟩, ?_⟩
    rw [planFindings_append, planFindings_append, hsame, planFindings_ofPlain, planFindings_ofPlain,
      filterMap_plainFiles_restating hnone, Policy.checkersFor_overriding]

theorem ofEntries_restating
    (hnone : ∀ p : Path, path.components = p.components → sources.file? p = none)
    {entries : List ListedEntry} {plan : Plan NodePattern}
    (h : Plan.ofEntries policy isSource entries = .ok plan)
    : ∃ plan', Plan.ofEntries (policy.overriding path (policy.checkersFor path)) isSource entries
          = .ok plan'
        ∧ sources.planFindings plan' = sources.planFindings plan := by
  cases entries with
  | nil =>
    cases h
    exact ⟨[], rfl, rfl⟩
  | cons entry entries =>
    obtain ⟨first, rest, hfirst, hrest, rfl⟩ := Plan.ofEntries_cons_eq_ok_iff.1 h
    obtain ⟨first', hfirst', hsame⟩ := ofEntry_restating hnone hfirst
    obtain ⟨rest', hrest', hsame'⟩ := ofEntries_restating hnone hrest
    refine ⟨_, Plan.ofEntries_cons_eq_ok_iff.2 ⟨first', rest', hfirst', hrest', rfl⟩, ?_⟩
    rw [planFindings_append, planFindings_append, hsame, hsame']

theorem ofEntry_restating
    (hnone : ∀ p : Path, path.components = p.components → sources.file? p = none)
    {entry : ListedEntry} {plan : Plan NodePattern}
    (h : Plan.ofEntry policy isSource entry = .ok plan)
    : ∃ plan', Plan.ofEntry (policy.overriding path (policy.checkersFor path)) isSource entry
          = .ok plan'
        ∧ sources.planFindings plan' = sources.planFindings plan := by
  cases entry with
  | directory other listing =>
    rw [Plan.ofEntry] at h ⊢
    rw [Policy.admits_overriding]
    by_cases hadmits : policy.admits isSource ⟨other, true⟩ = true
    . rw [if_pos hadmits] at h ⊢
      exact ofListing_restating hnone h
    . rw [if_neg hadmits] at h ⊢
      exact ⟨plan, h, rfl⟩
  | file p =>
    rw [Plan.ofEntry] at h ⊢
    rw [Policy.admits_overriding]
    by_cases hadmits : policy.admits isSource ⟨p, false⟩ = true
    . rw [if_pos hadmits] at h ⊢
      cases h
      refine ⟨_, rfl, ?_⟩
      rw [Policy.overrideFor?_overriding]
      by_cases hsame : path.components = p.components
      . -- the entry is a link at the path of a directory
        have hempty (set : CheckerSet NodePattern) : sources.planFindings [(.file p, set)] = [] := by
          simp [planFindings, UnitRequest.files, hnone p hsame]
        rw [if_pos hsame]
        cases policy.overrideFor? p with
        | none => exact hempty _
        | some set => exact (hempty _).trans (hempty set).symm
      . rw [if_neg hsame]
    . rw [if_neg hadmits] at h ⊢
      exact ⟨plan, h, rfl⟩

end

theorem planFindings_restating_package
    (hnone : ∀ p : Path, path.components = p.components → sources.file? p = none) {listing : Listing}
    {plan : Plan NodePattern} (h : Plan.ofProject policy isSource listing = .ok plan)
    : ∃ plan', Plan.ofProject (policy.overriding path (policy.checkersFor path)) isSource listing
          = .ok plan'
        ∧ sources.planFindings plan' = sources.planFindings plan := by
  unfold Plan.ofProject at h ⊢
  rw [Policy.isIgnored_overriding, Policy.root_overriding]
  by_cases hroot : policy.isIgnored policy.root = true
  . rw [if_pos hroot] at h ⊢
    exact ⟨plan, h, rfl⟩
  . rw [if_neg hroot] at h ⊢
    exact ofListing_restating hnone h

end Package

end Sources

namespace Project

variable {tree : FileTree} {root path : Path} {c : Config} {text : String} {project : Project}

theorem exists_plan_of_prepare (h : prepare tree root c = .ok project)
    : ∃ plan,
        Plan.ofProject project.policy isSourcePath (Listing.ofPath tree project.policy.root) = .ok plan
          ∧ findings SourceUnit.matcher project.schedule.pairs = project.sources.planFindings plan := by
  obtain ⟨_, _, hschedule⟩ := prepare_eq_ok_iff.1 h
  rw [Schedule.ofProject_eq_plan] at hschedule
  unfold Sources.provider at hschedule
  dsimp only at hschedule
  cases hplan : Plan.ofProject project.policy isSourcePath
      (Listing.ofPath tree project.policy.root) with
  | error e =>
    rw [hplan] at hschedule
    contradiction
  | ok plan =>
    rw [hplan] at hschedule
    injection hschedule with hschedule
    refine ⟨plan, rfl, ?_⟩
    rw [← hschedule]
    exact Sources.findings_ofPlan tree project.sources plan

theorem prepare_overriding {entry : OverrideEntry} {set : CheckerSet NodePattern}
    {plan : Plan NodePattern} (h : prepare tree root c = .ok project)
    (hentry : entry.resolve tree root project.policy.registry c.overrides.length = .ok (path, set))
    (hplan : Plan.ofProject (project.policy.overriding path set) isSourcePath
      (Listing.ofPath tree project.policy.root) = .ok plan)
    : ∃ project', prepare tree root { c with overrides := c.overrides ++ [entry] } = .ok project'
        ∧ project'.policy.budget = project.policy.budget
        ∧ findings SourceUnit.matcher project'.schedule.pairs = project.sources.planFindings plan := by
  obtain ⟨hpolicy, hload, _⟩ := prepare_eq_ok_iff.1 h
  refine ⟨⟨project.policy.overriding path set, project.sources,
    Schedule.ofPlan (project.sources.provider tree) plan⟩, ?_, rfl, ?_⟩
  . refine prepare_eq_ok_iff.2 ⟨Policy.resolve_overriding hpolicy hentry, hload, ?_⟩
    rw [Schedule.ofProject_eq_plan]
    exact congrArg (Except.map _) hplan
  . exact Sources.findings_ofPlan tree project.sources plan

theorem exists_run_of_findings {project' : Project} {run : Run}
    (hbudget : project'.policy.budget = project.policy.budget) (hrun : project.run? = some run)
    (hle : (findings SourceUnit.matcher project'.schedule.pairs).length ≤ project.policy.budget.limit)
    : ∃ run', project'.run? = some run'
        ∧ run'.outcome.diagnostics = findings SourceUnit.matcher project'.schedule.pairs := by
  obtain ⟨hroom, _⟩ := Run.settles_of_ofSchedule? hrun
  rw [← hbudget] at hroom hle
  obtain ⟨run', hrun', hsettles', _⟩ :=
    Run.ofSchedule?_settles SourceUnit.matcher project'.policy.budget project'.schedule hroom
  exact ⟨run', hrun', hsettles'.diagnostics_eq hle⟩

theorem findings_restating_file (htree : tree.IsProper) (h : prepare tree root c = .ok project)
    (hpath : projectPath tree root text = .ok path) (hfile : tree.isFile path = true)
    : ∃ project',
        prepare tree root { c with
          overrides := c.overrides ++ [⟨none, some text, (project.policy.inForce path).selection⟩] }
            = .ok project'
          ∧ project'.policy.budget = project.policy.budget
          ∧ (findings SourceUnit.matcher project'.schedule.pairs).Perm
            (findings SourceUnit.matcher project.schedule.pairs) := by
  obtain ⟨hpolicy, hload, _⟩ := prepare_eq_ok_iff.1 h
  have hroot := (Policy.resolve_eq_ok_iff.1 hpolicy).1
  subst hroot
  have hentry := resolve_file_restating hpath hfile (isPart_inForce hpolicy path) c.overrides.length
  obtain ⟨plan, hplan, hfindings⟩ := exists_plan_of_prepare h
  by_cases hignored : project.policy.isIgnored project.policy.root = true
  . -- nothing is planned if the root is left out
    unfold Plan.ofProject at hplan
    rw [if_pos hignored] at hplan
    cases hplan
    have hplan' : Plan.ofProject (project.policy.overriding path (project.policy.inForce path))
        isSourcePath (Listing.ofPath tree project.policy.root) = .ok [] := by
      unfold Plan.ofProject
      rw [Policy.isIgnored_overriding, Policy.root_overriding, if_pos hignored]
    obtain ⟨project', hprepare', hbudget, hfindings'⟩ := prepare_overriding h hentry hplan'
    refine ⟨project', hprepare', hbudget, ?_⟩
    rw [hfindings, hfindings']
  . rw [Bool.not_eq_true] at hignored
    obtain ⟨entries, hwalk, _, _⟩ := Sources.load_eq_ok_iff.1 hload
    have hlisting := isTreeAt_of_walkOf htree hwalk hignored
    obtain ⟨other, hother, hcovers⟩ := Plan.ofProject_covers isSourcePath hlisting
    rw [hplan] at hother
    cases hother
    have hlisting' : (Listing.ofPath tree project.policy.root).IsTreeAt
        (project.policy.overriding path (project.policy.inForce path)).root := hlisting
    obtain ⟨plan', hplan', hcovers'⟩ := Plan.ofProject_covers isSourcePath hlisting'
    obtain ⟨project', hprepare', hbudget, hfindings'⟩ := prepare_overriding h hentry hplan'
    refine ⟨project', hprepare', hbudget, ?_⟩
    rw [hfindings, hfindings']
    exact Sources.planFindings_restating_file htree hload hpath hfile hlisting hcovers hcovers'

theorem findings_restating_package (htree : tree.IsProper) (h : prepare tree root c = .ok project)
    (hpath : projectPath tree root text = .ok path) (hdirectory : tree.isDirectory path = true)
    : ∃ project',
        prepare tree root { c with
          overrides := c.overrides ++ [⟨some text, none, (project.policy.checkersFor path).selection⟩] }
            = .ok project'
          ∧ project'.policy.budget = project.policy.budget
          ∧ findings SourceUnit.matcher project'.schedule.pairs
            = findings SourceUnit.matcher project.schedule.pairs := by
  obtain ⟨hpolicy, hload, _⟩ := prepare_eq_ok_iff.1 h
  have hroot := (Policy.resolve_eq_ok_iff.1 hpolicy).1
  subst hroot
  have hentry :=
    resolve_package_restating hpath hdirectory (isPart_checkersFor hpolicy path) c.overrides.length
  have hnone (p : Path) (hsame : path.components = p.components) : project.sources.file? p = none :=
    file?_eq_none_of_isDirectory htree hload hpath hdirectory hsame
  obtain ⟨plan, hplan, hfindings⟩ := exists_plan_of_prepare h
  obtain ⟨plan', hplan', hsame⟩ := Sources.planFindings_restating_package hnone hplan
  obtain ⟨project', hprepare', hbudget, hfindings'⟩ := prepare_overriding h hentry hplan'
  refine ⟨project', hprepare', hbudget, ?_⟩
  rw [hfindings, hfindings', hsame]

/--
The law of restating. If a project can be checked, and no more is found in it than the budget allows,
then an override that names the checkers in force for a file changes at most the order of the
diagnostics, and one that names those in force in a directory changes nothing.
-/
theorem run_restating (system : FileSystem) (root path : Path) (c : Config) (text : String)
    (project : Project) (run : Run)
    (hprepare : prepare system.tree root c = .ok project) (hrun : project.run? = some run)
    (hbudget : (findings SourceUnit.matcher project.schedule.pairs).length
      ≤ project.policy.budget.limit)
    (hpath : projectPath system.tree root text = .ok path)
    : (system.tree.isFile path = true →
        ∃ project' run',
          prepare system.tree root { c with
            overrides := c.overrides
              ++ [⟨none, some text, ⟨some (project.policy.inForce path).names, none⟩⟩] }
              = .ok project'
            ∧ project'.run? = some run'
            ∧ run'.outcome.diagnostics.Perm run.outcome.diagnostics)
        ∧ (system.tree.isDirectory path = true →
          ∃ project' run',
            prepare system.tree root { c with
              overrides := c.overrides
                ++ [⟨some text, none, ⟨some (project.policy.checkersFor path).names, none⟩⟩] }
                = .ok project'
              ∧ project'.run? = some run'
              ∧ run'.outcome.diagnostics = run.outcome.diagnostics) := by
  obtain ⟨_, hsettles⟩ := Run.settles_of_ofSchedule? hrun
  rw [hsettles.diagnostics_eq hbudget]
  constructor
  . intro hfile
    obtain ⟨project', hprepare', hsame, hfindings⟩ :=
      findings_restating_file system.proper hprepare hpath hfile
    rw [← hfindings.length_eq] at hbudget
    obtain ⟨run', hrun', hdiagnostics⟩ := exists_run_of_findings hsame hrun hbudget
    exact ⟨project', run', hprepare', hrun', hdiagnostics ▸ hfindings⟩
  . intro hdirectory
    obtain ⟨project', hprepare', hsame, hfindings⟩ :=
      findings_restating_package system.proper hprepare hpath hdirectory
    rw [← hfindings] at hbudget
    obtain ⟨run', hrun', hdiagnostics⟩ := exists_run_of_findings hsame hrun hbudget
    exact ⟨project', run', hprepare', hrun', hdiagnostics.trans hfindings⟩

theorem run_restating_sample
    : ∃ project run project' run' project'' run'',
        prepare sampleSystem.tree ⟨"/p"⟩ sampleConfig = .ok project
          ∧ project.run? = some run
          ∧ (findings SourceUnit.matcher project.schedule.pairs).length
            ≤ project.policy.budget.limit
          ∧ projectPath sampleSystem.tree ⟨"/p"⟩ "one.rs" = .ok ⟨"/p/one.rs"⟩
          ∧ projectPath sampleSystem.tree ⟨"/p"⟩ "src" = .ok ⟨"/p/src"⟩
          ∧ prepare sampleSystem.tree ⟨"/p"⟩ { sampleConfig with
            overrides := [⟨none, some "one.rs",
              ⟨some (project.policy.inForce ⟨"/p/one.rs"⟩).names, none⟩⟩] } = .ok project'
          ∧ project'.run? = some run'
          ∧ run'.outcome.diagnostics.Perm run.outcome.diagnostics
          ∧ prepare sampleSystem.tree ⟨"/p"⟩ { sampleConfig with
            overrides := [⟨some "src", none,
              ⟨some (project.policy.checkersFor ⟨"/p/src"⟩).names, none⟩⟩] } = .ok project''
          ∧ project''.run? = some run''
          ∧ run''.outcome.diagnostics = run.outcome.diagnostics := by
  obtain ⟨project, run, hprepare, hrun, hle, _⟩ := prepare_sample
  have hfile : projectPath sampleSystem.tree ⟨"/p"⟩ "one.rs" = .ok ⟨"/p/one.rs"⟩ := by rfl
  obtain ⟨project', run', hprepare', hrun', hperm⟩ :=
    (run_restating sampleSystem ⟨"/p"⟩ ⟨"/p/one.rs"⟩ sampleConfig "one.rs" project run
      hprepare hrun hle hfile).1 rfl
  obtain ⟨project'', run'', hprepare'', hrun'', hsame⟩ :=
    (run_restating sampleSystem ⟨"/p"⟩ ⟨"/p/src"⟩ sampleConfig "src" project run
      hprepare hrun hle projectPath_sample).2 rfl
  exact ⟨project, run, project', run', project'', run'', hprepare, hrun, hle,
    hfile, projectPath_sample, hprepare', hrun', hperm, hprepare'', hrun'', hsame⟩

end Project

end PatternLint
