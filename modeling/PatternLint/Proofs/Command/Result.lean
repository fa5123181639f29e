import PatternLint.Command.Check
import PatternLint.Proofs.Config.Source
import PatternLint.Proofs.Policy.Alike
import PatternLint.Proofs.Project.Ignoring
import PatternLint.Proofs.Source.Without

/-!
This module contains the law of the command: with which status it ends and what it prints, in terms of the
stages of a check, and which files have no influence on it.
-/

namespace PatternLint

open FileTree

def Project.findings (p : Project) : List Diagnostic :=
  PatternLint.findings SourceUnit.matcher p.schedule.pairs

namespace Command

def CheckOptions.override (o : CheckOptions) (c : Config) : Config :=
  { c with choke := o.choke.or c.choke }

/-- The configuration in force for a check: what its source gives, with the choke of the flag. -/
def InForce (s : Surroundings) (o : CheckOptions) (root : Path) (c : Config) : Prop :=
  ∃ (source : ConfigSource) (read : Config),
    source.IsFirst s.tree s.here root o.config s.userDirectory
      ∧ source.Gives s.tree s.here read ∧ c = o.override read

/-- Every stage of a check succeeds: the root is there, the configuration is read, and a project is made of it. -/
structure Succeeds (s : Surroundings) (o : CheckOptions) (root : Path) (p : Project) : Prop where
  root_eq : s.tree.canonicalPath (s.here.join o.root) = .ok root
  policy : ∃ c, InForce s o root c ∧ Policy.resolve compileNodePattern s.tree root c = .ok p.policy
  sources : Sources.load s.tree root p.policy.ignored = .ok p.sources
  schedule : Schedule.ofProject p.policy (p.sources.provider s.tree) = .ok p.schedule

theorem check_eq (s : Surroundings) (o : CheckOptions)
    : check s o
        =
      (do
        let root ← (s.tree.canonicalPath (s.here.join o.root)).mapError (Failure.root o.root)
        let source := ConfigSource.find s.tree s.here root o.config s.userDirectory
        let read ← (source.load s.tree s.here).mapError (Failure.config source)
        let project ← (Project.prepare s.tree root (o.override read)).mapError Failure.project
        match project.run? with
        | some run => .ok (root, run.outcome)
        | none => .error .noRoom) := by
  unfold check
  refine bind_congr fun root => bind_congr fun read => bind_congr fun project => ?_
  cases project.run? <;> rfl

theorem succeeds_iff {s : Surroundings} {o : CheckOptions} {root : Path} {p : Project}
    : Succeeds s o root p
        ↔
      s.tree.canonicalPath (s.here.join o.root) = .ok root
        ∧ ∃ read, ConfigSource.load s.tree s.here
            (ConfigSource.find s.tree s.here root o.config s.userDirectory) = .ok read
          ∧ Project.prepare s.tree root (o.override read) = .ok p := by
  simp only [Project.prepare_eq_ok_iff]
  constructor
  . rintro ⟨hroot, ⟨_, ⟨source, read, hfirst, hgives, rfl⟩, hpolicy⟩, hsources, hschedule⟩
    rw [ConfigSource.isFirst_iff_find_eq.1 hfirst]
    exact ⟨hroot, read, ConfigSource.gives_iff.1 hgives, hpolicy, hsources, hschedule⟩
  . rintro ⟨hroot, read, hread, hpolicy, hsources, hschedule⟩
    refine ⟨hroot, ⟨_, ⟨_, read, ?_, ConfigSource.gives_iff.2 hread, rfl⟩, hpolicy⟩, hsources, hschedule⟩
    exact ConfigSource.isFirst_iff_find_eq.2 rfl

theorem check_of_succeeds {s : Surroundings} {o : CheckOptions} {root : Path} {p : Project} {run : Run}
    (h : Succeeds s o root p) (hrun : p.run? = some run) : check s o = .ok (root, run.outcome) := by
  obtain ⟨hroot, read, hread, hproject⟩ := succeeds_iff.1 h
  rw [check_eq, hroot]
  dsimp only [bind, Except.bind, Except.mapError]
  rw [hread]
  dsimp only
  rw [hproject]
  dsimp only
  rw [hrun]

theorem exists_succeeds_of_check {s : Surroundings} {o : CheckOptions} {root : Path} {outcome : Outcome}
    (h : check s o = .ok (root, outcome))
    : ∃ p run, Succeeds s o root p ∧ p.run? = some run ∧ outcome = run.outcome := by
  simp only [check_eq, bind_eq_ok_iff, mapError_eq_ok_iff] at h
  obtain ⟨root', hroot, read, hread, p, hproject, h⟩ := h
  split at h
  . next run hrun =>
    cases h
    exact ⟨p, run, succeeds_iff.2 ⟨hroot, read, hread, hproject⟩, hrun, rfl⟩
  . contradiction

theorem exists_succeeds_of_noRoom {s : Surroundings} {o : CheckOptions} (h : check s o = .error .noRoom)
    : ∃ root p, Succeeds s o root p ∧ p.run? = none := by
  simp only [check_eq, bind_eq_error_iff, mapError_eq_ok_iff, mapError_eq_error_iff, reduceCtorEq, and_false,
    exists_false, false_or] at h
  obtain ⟨root, hroot, read, hread, p, hproject, h⟩ := h
  split at h
  . contradiction
  . next hrun => exact ⟨root, p, succeeds_iff.2 ⟨hroot, read, hread, hproject⟩, hrun⟩

theorem ofCheck_of_succeeds {s : Surroundings} {o : CheckOptions} {root : Path} {p : Project}
    (h : Succeeds s o root p) (hroom : Run.canReserve p.policy.budget = true)
    : Reply.ofCheck s o
        =
      ⟨if p.findings = [] then 0 else 1,
        Report.render root o.format s.isTerminal
          (p.findings.take (min p.findings.length p.policy.budget.limit)), none⟩ := by
  obtain ⟨run, hrun, hsettles, _⟩ :=
    Run.ofSchedule?_settles SourceUnit.matcher p.policy.budget p.schedule hroom
  have hstatus : run.outcome.exitCode = if p.findings = [] then 0 else 1 := by
    have hclean := hsettles.clean_iff
    unfold Project.findings
    split
    . next hnil =>
      rw [hclean.2 hnil]
      rfl
    . next hne =>
      cases houtcome : run.outcome with
      | clean => exact absurd (hclean.1 houtcome) hne
      | findings ds => rfl
      | choked ds => rfl
  unfold Reply.ofCheck
  rw [check_of_succeeds h hrun]
  dsimp only
  rw [hstatus, Run.diagnostics_eq_take hsettles]
  rfl

theorem ofCheck_of_not_succeeds {s : Surroundings} {o : CheckOptions} (h : ¬ ∃ root p, Succeeds s o root p)
    : ∃ complaint, Reply.ofCheck s o = ⟨1, "", some complaint⟩ := by
  unfold Reply.ofCheck
  cases hcheck : check s o with
  | ok result =>
    obtain ⟨p, _, hsucceeds, _⟩ := exists_succeeds_of_check hcheck
    exact absurd ⟨_, p, hsucceeds⟩ h
  | error e =>
    refine ⟨"Error: " ++ e.message, ?_⟩
    cases e with
    | noRoom =>
      obtain ⟨root, p, hsucceeds, _⟩ := exists_succeeds_of_noRoom hcheck
      exact absurd ⟨root, p, hsucceeds⟩ h
    | root path error => rfl
    | config source error => rfl
    | project error => rfl

theorem ofCheck_result {s : Surroundings} {o : CheckOptions}
    (hroom : ∀ root p, Succeeds s o root p → Run.canReserve p.policy.budget = true)
    : ((Reply.ofCheck s o).status = 0 ↔ ∃ root p, Succeeds s o root p ∧ p.findings = [])
        ∧ ((Reply.ofCheck s o).status = 0 ∨ (Reply.ofCheck s o).status = 1)
        ∧ ((Reply.ofCheck s o).status = 0 → (Reply.ofCheck s o).output = "")
        ∧ ((¬ ∃ root p, Succeeds s o root p) → (Reply.ofCheck s o).output = "")
        ∧ ∀ root p, Succeeds s o root p → (Reply.ofCheck s o).output
          = Report.render root o.format s.isTerminal
            (p.findings.take (min p.findings.length p.policy.budget.limit)) := by
  have hprints (root : Path) (p : Project) (h : Succeeds s o root p) := ofCheck_of_succeeds h (hroom root p h)
  have hzero (root : Path) (p : Project) (h : Succeeds s o root p)
      : (Reply.ofCheck s o).status = 0 ↔ p.findings = [] := by
    rw [hprints root p h]
    simp
  by_cases hsucceeds : ∃ root p, Succeeds s o root p
  . obtain ⟨root, p, hsucceeds⟩ := hsucceeds
    refine ⟨⟨?_, ?_⟩, ?_, ?_, ?_, ?_⟩
    . intro hstatus
      exact ⟨root, p, hsucceeds, (hzero root p hsucceeds).1 hstatus⟩
    . rintro ⟨root, p, hsucceeds, hnil⟩
      exact (hzero root p hsucceeds).2 hnil
    . rw [hprints root p hsucceeds]
      dsimp only
      split
      . exact .inl rfl
      . exact .inr rfl
    . intro hstatus
      rw [hprints root p hsucceeds, (hzero root p hsucceeds).1 hstatus]
      rfl
    . intro hfails
      exact absurd ⟨root, p, hsucceeds⟩ hfails
    . intro root p hsucceeds
      rw [hprints root p hsucceeds]
  . obtain ⟨_, hreply⟩ := ofCheck_of_not_succeeds hsucceeds
    rw [hreply]
    refine ⟨⟨?_, ?_⟩, .inr rfl, fun _ => rfl, fun _ => rfl, ?_⟩
    . intro hstatus
      contradiction
    . rintro ⟨root, p, h, _⟩
      exact absurd ⟨root, p, h⟩ hsucceeds
    . intro root p h
      exact absurd ⟨root, p, h⟩ hsucceeds

theorem ofCheck_eq_of_succeeds_iff {s s' : Surroundings} {o : CheckOptions}
    (hroom : ∀ root p, Succeeds s o root p → Run.canReserve p.policy.budget = true)
    (hterminal : s'.isTerminal = s.isTerminal) (h : ∀ root p, Succeeds s' o root p ↔ Succeeds s o root p)
    : (Reply.ofCheck s' o).status = (Reply.ofCheck s o).status
        ∧ (Reply.ofCheck s' o).output = (Reply.ofCheck s o).output := by
  by_cases hsucceeds : ∃ root p, Succeeds s o root p
  . obtain ⟨root, p, hsucceeds⟩ := hsucceeds
    have hroom := hroom root p hsucceeds
    rw [ofCheck_of_succeeds hsucceeds hroom, ofCheck_of_succeeds ((h root p).2 hsucceeds) hroom, hterminal]
    exact ⟨rfl, rfl⟩
  . have hfails : ¬ ∃ root p, Succeeds s' o root p := by
      simpa only [h] using hsucceeds
    obtain ⟨_, hreply⟩ := ofCheck_of_not_succeeds hsucceeds
    obtain ⟨_, hreply'⟩ := ofCheck_of_not_succeeds hfails
    rw [hreply, hreply']
    exact ⟨rfl, rfl⟩

/-! ### Files without an influence -/

structure TakesFrom (s : Surroundings) (o : CheckOptions) (root : Path) (source : ConfigSource) : Prop where
  root_eq : s.tree.canonicalPath (s.here.join o.root) = .ok root
  first : source.IsFirst s.tree s.here root o.config s.userDirectory

structure Surroundings.SameBut (gone : List RawText → Bool) (s s' : Surroundings) : Prop where
  tree : s.tree.SameBut gone s'.tree
  spares : SparesSources gone
  here_eq : s'.here = s.here
  userDirectory_eq : s'.userDirectory = s.userDirectory
  isTerminal_eq : s'.isTerminal = s.isTerminal

def SamePlaces (gone : List RawText → Bool) (t t' : FileTree) : Prop :=
  ∀ names, gone names = true → (t'.descend names).isSome = (t.descend names).isSome

/-- Neither the configuration of a project nor what it names is at one of the places `gone`. -/
structure Surroundings.Spares (gone : List RawText → Bool) (s : Surroundings) (root : Path) (source : ConfigSource)
    : Prop where
  file : source.Spares gone s.tree s.here
  named : ∀ c, source.Gives s.tree s.here c →
    ∀ text ∈ c.paths, ∀ path, StandsFor s.tree root text path → FileTree.Spares gone s.tree path

section Influence

variable {gone : List RawText → Bool} {s s' : Surroundings} {o : CheckOptions} {root : Path}
  {source : ConfigSource}

theorem Surroundings.SameBut.symm (h : s.SameBut gone s') : s'.SameBut gone s :=
  ⟨h.tree.symm, h.spares, h.here_eq.symm, h.userDirectory_eq.symm, h.isTerminal_eq.symm⟩

theorem prepare_eq_of_sameBut {t t' : FileTree} {c : Config} (h : t.SameBut gone t')
    (hspares : SparesSources gone)
    (hroot : ∀ followLast, (t'.resolve followLast root).map outline = (t.resolve followLast root).map outline)
    (hnames : NamesAlike t t' root c.paths) : Project.prepare t' root c = Project.prepare t root c := by
  unfold Project.prepare
  rw [Policy.resolve_eq_of_namesAlike hnames]
  cases hresolve : Policy.resolve compileNodePattern t root c with
  | error e => rfl
  | ok policy =>
    -- both walks start at the root of the policy, which is that of the project
    have hpolicyRoot := (Policy.resolve_eq_ok_iff.1 hresolve).1
    dsimp only [bind, Except.bind, Except.mapError]
    rw [Sources.load_eq_of_sameBut h hspares hroot]
    cases Sources.load t root policy.ignored with
    | error e => rfl
    | ok sources =>
      dsimp only
      rw [Schedule.ofProject_eq_of_sameBut sources h hspares (by rwa [hpolicyRoot])]

theorem check_eq_of_samePlaces (h : s.SameBut gone s') (hplaces : SamePlaces gone s.tree s'.tree)
    (hload : ∀ root source, TakesFrom s o root source →
      (source.load s'.tree s.here).map o.override = (source.load s.tree s.here).map o.override)
    : check s' o = check s o := by
  have hshape := h.tree.sameShape hplaces
  rw [check_eq, check_eq, h.here_eq, h.userDirectory_eq, hshape.canonicalPath_eq]
  cases hroot : s.tree.canonicalPath (s.here.join o.root) with
  | error e => dsimp only [bind, Except.bind, Except.mapError]
  | ok root =>
    dsimp only [bind, Except.bind, Except.mapError]
    rw [ConfigSource.find_eq_of_sameShape hshape]
    have hload := hload root _ ⟨hroot, ConfigSource.isFirst_iff_find_eq.2 rfl⟩
    -- what is read may differ in the choke, which the flag replaces before a project is made
    cases hread : (ConfigSource.find s.tree s.here root o.config s.userDirectory).load s.tree s.here with
    | error e =>
      rw [hread] at hload
      rw [map_eq_error_iff.1 hload]
    | ok read =>
      rw [hread] at hload
      obtain ⟨read', hread', hoverride⟩ := map_eq_ok_iff.1 hload
      rw [hread']
      dsimp only
      rw [hoverride, prepare_eq_of_sameBut h.tree h.spares (hshape.resolve_map_outline · root)]
      exact fun text _ path _ => hshape.standsAlike path

theorem override_eq_of_choke {c c' : Config} (hchoke : o.choke ≠ none)
    (h : { c' with choke := c.choke } = c) : o.override c' = o.override c := by
  obtain ⟨choke, hchoke⟩ := Option.ne_none_iff_exists'.1 hchoke
  unfold CheckOptions.override
  rw [hchoke, ← h]
  rfl

theorem Succeeds.of_sameBut {p : Project} (h : s.SameBut gone s') (htakes : TakesFrom s o root source)
    (htakes' : TakesFrom s' o root source) (hspares : s.Spares gone root source)
    (hspares' : s'.Spares gone root source) {root' : Path} (hsucceeds : Succeeds s o root' p)
    : Succeeds s' o root' p := by
  obtain ⟨hroot, read, hread, hproject⟩ := succeeds_iff.1 hsucceeds
  rw [htakes.root_eq] at hroot
  cases hroot
  rw [ConfigSource.isFirst_iff_find_eq.1 htakes.first] at hread
  have hread' : source.load s'.tree s'.here = .ok read := by
    rw [h.here_eq]
    exact source.load_eq_ok h.tree hspares.file hread
  refine succeeds_iff.2 ⟨htakes'.root_eq, read, ?_, ?_⟩
  . rwa [ConfigSource.isFirst_iff_find_eq.1 htakes'.first]
  . rw [prepare_eq_of_sameBut h.tree h.spares, hproject]
    . exact h.tree.resolve_canonicalPath htakes.root_eq htakes'.root_eq
    . exact .of_sameBut h.tree (hspares.named read (ConfigSource.gives_iff.2 hread))
        (hspares'.named read (ConfigSource.gives_iff.2 hread'))

end Influence

/--
The law of the command. It ends with status 0 if all stages succeed and nothing is found, and with status 1
otherwise. It prints nothing if a stage fails, and else the report of what is found, as far as the budget allows.
What is in files that are no sources, but for the one that the configuration is read from, has no influence, nor
has a choke in that file if there is a flag for it. Whether such files are there makes no difference either,
unless they are looked for.
-/
theorem Reply.ofArguments_result (s : Surroundings) (arguments : List String) (o : CheckOptions)
    (hread : readArguments arguments = .ok o) (hterminal : s.isTerminal = false)
    (hroom : ∀ root p, Succeeds s o root p → Run.canReserve p.policy.budget = true)
    : ((ofArguments s arguments).status = 0 ↔ ∃ root p, Succeeds s o root p ∧ p.findings = [])
        ∧ ((ofArguments s arguments).status = 0 ∨ (ofArguments s arguments).status = 1)
        ∧ ((ofArguments s arguments).status = 0 → (ofArguments s arguments).output = "")
        ∧ ((¬ ∃ root p, Succeeds s o root p) → (ofArguments s arguments).output = "")
        ∧ (∀ root p, Succeeds s o root p → (ofArguments s arguments).output
          = Report.render root o.format false
            (p.findings.take (min p.findings.length p.policy.budget.limit)))
        ∧ (∀ s' gone, s.SameBut gone s' → SamePlaces gone s.tree s'.tree →
          (∀ root source, TakesFrom s o root source → source.Spares gone s.tree s.here) →
          ofArguments s' arguments = ofArguments s arguments)
        ∧ (∀ s' gone, s.SameBut gone s' → SamePlaces gone s.tree s'.tree → o.choke ≠ none →
          (∀ root source, TakesFrom s o root source →
            ∃ c c' : Config, source.Gives s.tree s.here c ∧ source.Gives s'.tree s.here c'
              ∧ { c' with choke := c.choke } = c) →
          ofArguments s' arguments = ofArguments s arguments)
        ∧ ∀ s' gone root source, s.SameBut gone s' → TakesFrom s o root source → TakesFrom s' o root source →
          s.Spares gone root source → s'.Spares gone root source →
          (ofArguments s' arguments).status = (ofArguments s arguments).status
            ∧ (ofArguments s' arguments).output = (ofArguments s arguments).output := by
  have hreply (s : Surroundings) : ofArguments s arguments = ofCheck s o := by
    unfold ofArguments
    rw [hread]
  simp only [hreply]
  have hcheck {s' : Surroundings} {gone : List RawText → Bool} (h : s.SameBut gone s')
      (heq : check s' o = check s o) : ofCheck s' o = ofCheck s o := by
    unfold ofCheck
    rw [heq, h.isTerminal_eq]
  obtain ⟨hzero, hstatus, hclean, hfails, hprints⟩ := ofCheck_result hroom
  rw [hterminal] at hprints
  refine ⟨hzero, hstatus, hclean, hfails, hprints, ?_, ?_, ?_⟩
  . intro s' gone h hplaces hspares
    apply hcheck h
    apply check_eq_of_samePlaces h hplaces
    intro root source htakes
    rw [source.load_eq_of_sameShape h.tree (h.tree.sameShape hplaces) (hspares root source htakes)]
  . intro s' gone h hplaces hchoke hloads
    apply hcheck h
    apply check_eq_of_samePlaces h hplaces
    intro root source htakes
    obtain ⟨c, c', hgives, hgives', hsame⟩ := hloads root source htakes
    rw [ConfigSource.gives_iff.1 hgives, ConfigSource.gives_iff.1 hgives']
    exact congrArg Except.ok (override_eq_of_choke hchoke hsame)
  . intro s' gone root source h htakes htakes' hspares hspares'
    apply ofCheck_eq_of_succeeds_iff hroom h.isTerminal_eq
    intro root p
    constructor
    . exact .of_sameBut h.symm htakes' htakes hspares' hspares
    . exact .of_sameBut h htakes htakes' hspares hspares'

def inProject (text : String) (others : List (RawText × FileTree)) : Surroundings where
  tree := .directory [("p", .directory (("patvet.toml", .file text.toUTF8) :: others))]
  here := ⟨"/"⟩
  userDirectory := none
  isTerminal := false

def withChoke : CheckOptions where
  choke := some 5
  format := .text
  root := ⟨"/p"⟩
  config := none
  verbose := false

theorem Reply.ofArguments_result_sample
    : readArguments ["check", "--root", "/p", "--choke", "5"] = .ok withChoke
        ∧ (inProject "choke = 0" []).isTerminal = false
        ∧ (∀ root p, Succeeds (inProject "choke = 0" []) withChoke root p →
          Run.canReserve p.policy.budget = true)
        ∧ (∃ root p, Succeeds (inProject "choke = 0" []) withChoke root p ∧ p.findings = [])
        ∧ ofArguments (inProject "" []) ["check", "--root", "/p", "--choke", "5"]
          = ofArguments (inProject "choke = 0" []) ["check", "--root", "/p", "--choke", "5"]
        ∧ (ofArguments (inProject "choke = 0" [(".patvet.toml", .file "x".toUTF8)])
            ["check", "--root", "/p", "--choke", "5"]).status
          = (ofArguments (inProject "choke = 0" []) ["check", "--root", "/p", "--choke", "5"]).status := by
  have hread : readArguments ["check", "--root", "/p", "--choke", "5"] = .ok withChoke := by
    rfl
  have hroom (root : Path) (p : Project) (h : Succeeds (inProject "choke = 0" []) withChoke root p)
      : Run.canReserve p.policy.budget = true := by
    -- the flag sets the budget, whatever the file says
    obtain ⟨_, ⟨_, _, _, _, rfl⟩, hpolicy⟩ := h.policy
    have hbudget : some ⟨5, by decide⟩ = some p.policy.budget := (Policy.resolve_eq_ok_iff.1 hpolicy).2.1
    rw [← Option.some.inj hbudget]
    decide
  have hzero : Config.ofText "choke = 0" = .ok ⟨some 0, [], ⟨none, none⟩, [], []⟩ := by
    rw [← toOption_eq_some_iff]
    decide +kernel
  have htakes (text : String) (others : List (RawText × FileTree))
      : TakesFrom (inProject text others) withChoke ⟨"/p"⟩ (.project ⟨"/p/patvet.toml"⟩) := by
    refine ⟨?_, ConfigSource.isFirst_iff_find_eq.2 ?_⟩
    . show (inProject text others).tree.canonicalPath (Path.join ⟨"/"⟩ ⟨"/p"⟩) = _
      rfl
    . show ConfigSource.find (inProject text others).tree ⟨"/"⟩ ⟨"/p"⟩ none none = _
      rfl
  obtain ⟨hstatus, _, _, _, _, _, hchoke, hfiles⟩ :=
    Reply.ofArguments_result (inProject "choke = 0" []) _ _ hread rfl hroom
  refine ⟨hread, rfl, hroom, ?_, ?_, ?_⟩
  . rw [← hstatus]
    decide +kernel
  . refine hchoke (inProject "" []) (· == ["p"] ++ ["patvet.toml"]) ?_ ?_ (by decide) ?_
    . exact ⟨⟨by decide, by decide, rfl⟩, sparesSources_of_name (by decide), rfl, rfl, rfl⟩
    . intro names hnames
      rw [beq_iff_eq.1 hnames]
      rfl
    . rintro root source ⟨hroot, hfirst⟩
      cases hroot
      cases ConfigSource.isFirst_iff_find_eq.1 hfirst
      refine ⟨_, .empty, .text rfl rfl hzero, .text rfl rfl ?_, rfl⟩
      rw [← toOption_eq_some_iff]
      decide +kernel
  . have hspares (others : List (RawText × FileTree)) : (inProject "choke = 0" others).Spares
        (· == ["p"] ++ [".patvet.toml"]) ⟨"/p"⟩ (.project ⟨"/p/patvet.toml"⟩) := by
      constructor
      . intro p hpath names hlocate
        cases hpath
        have hplace : (inProject "choke = 0" others).tree.locate true
            (Path.join ⟨"/"⟩ ⟨"/p/patvet.toml"⟩) = .ok ["p", "patvet.toml"] := by
          rfl
        cases hplace.symm.trans hlocate
        decide
      . intro c hgives text htext
        have hconfig : (ConfigSource.project ⟨"/p/patvet.toml"⟩).load
            (inProject "choke = 0" others).tree ⟨"/"⟩ = Config.ofText "choke = 0" := by
          rfl
        cases hzero.symm.trans (hconfig.symm.trans (ConfigSource.gives_iff.1 hgives))
        contradiction
    refine (hfiles _ (· == ["p"] ++ [".patvet.toml"]) _ _ ?_ (htakes _ _) (htakes _ _) (hspares _)
      (hspares _)).1
    exact ⟨⟨by decide, by decide, rfl⟩, sparesSources_of_name (by decide), rfl, rfl, rfl⟩

theorem Reply.lower_file_counts
    : (ofArguments (inProject "ignored = [\".patvet.toml\"]" []) ["check", "--root", "/p"]).status = 1
        ∧ (ofArguments (inProject "ignored = [\".patvet.toml\"]" [(".patvet.toml", .file .empty)])
          ["check", "--root", "/p"]).status = 0 := by
  refine ⟨?_, ?_⟩
  . decide +kernel
  . decide +kernel

end Command

end PatternLint
