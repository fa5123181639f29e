import PatternLint.Proofs.Policy.Problem

/-!
This module contains the law of resolution. A configuration makes a policy exactly if it is valid, and
otherwise the first condition that it violates is reported.
-/

namespace PatternLint

variable {P : Type}

/-! ### What is right -/

structure Selection.IsValid (known : List String) (s : Selection) : Prop where
  exclusive : s.enabled = none ∨ s.disabled = none
  known : ∀ names, s.enabled = some names → ∀ name ∈ names, name ∈ known

structure OverrideEntry.IsValid (tree : FileTree) (root : Path) (known : List String)
    (e : OverrideEntry) : Prop where
  target : (∃ text path entries, e.package = some text ∧ e.file = none
      ∧ StandsFor tree root text path ∧ tree.resolve true path = .ok (.directory entries))
    ∨ ∃ text path content, e.package = none ∧ e.file = some text
      ∧ StandsFor tree root text path ∧ tree.resolve true path = .ok (.file content)
  selection : e.selection.IsValid known

structure Config.IsValid (compile : PatternCompiler P) (tree : FileTree) (root : Path) (c : Config) :
    Prop where
  choke : c.choke ≠ some 0
  nodup : c.names.Nodup
  compiles : ∀ entry ∈ c.checkers, ∃ pattern, compile entry.pattern = .ok pattern
  ignored : ∀ text ∈ c.ignored, ∃ path, StandsFor tree root text path
  selection : c.selection.IsValid c.names
  overrides : ∀ entry ∈ c.overrides, entry.IsValid tree root c.names

/-! ### What resolution makes of it -/

section Valid

variable {compile : PatternCompiler P} {tree : FileTree} {root : Path} {known : List String}

theorem faultless_names_iff {names : List String}
    : Faultless (NameProblem known) names ↔ ∀ name ∈ names, name ∈ known := by
  apply faultless_iff_forall_mem
  intro before name
  constructor
  . intro h
    by_contra hunknown
    exact h _ (.unknown hunknown)
  . rintro hmem fault ⟨hunknown⟩
    exact hunknown hmem

theorem Selection.isValid_iff {s : Selection}
    : s.IsValid known ↔ ∀ fault, ¬ SelectionProblem known s fault := by
  constructor
  . rintro hvalid fault (⟨henabled, hdisabled⟩ | ⟨names, henabled, _, _, hfirst⟩)
    . rcases hvalid.exclusive with hnone | hnone
      . simp [hnone] at henabled
      . simp [hnone] at hdisabled
    . have hfaultless := faultless_names_iff.2 (hvalid.known names henabled)
      exact faultless_iff_forall_not_firstProblem.1 hfaultless fault hfirst
  . intro h
    have hexclusive : s.enabled = none ∨ s.disabled = none := by
      by_contra hnot
      rw [not_or, ← ne_eq, ← ne_eq, Option.ne_none_iff_isSome, Option.ne_none_iff_isSome] at hnot
      exact h _ (.bothLists hnot.1 hnot.2)
    refine ⟨hexclusive, fun names henabled => ?_⟩
    have hdisabled : s.disabled = none := hexclusive.resolve_left (by simp [henabled])
    rw [← faultless_names_iff, faultless_iff_forall_not_firstProblem]
    exact fun fault hfirst => h fault (.name names henabled hdisabled fault hfirst)

def OverrideEntry.IsAimed (tree : FileTree) (root : Path) (index : Nat) (e : OverrideEntry) : Prop :=
  ∃ field text path, e.HasTarget index field text ∧ StandsFor tree root text path
    ∧ ∀ fault, ¬ KindProblem tree path field fault

theorem OverrideEntry.isValid_iff_isAimed (index : Nat) {e : OverrideEntry}
    : e.IsValid tree root known ↔ e.IsAimed tree root index ∧ e.selection.IsValid known := by
  constructor
  . rintro ⟨⟨text, path, entries, hpackage, hfile, hpath, hentries⟩
      | ⟨text, path, content, hpackage, hfile, hpath, hcontent⟩, hselection⟩
    . refine ⟨⟨.package index, text, path, .package text hpackage hfile, hpath, ?_⟩, hselection⟩
      rintro fault ⟨_, hnone⟩
      exact hnone entries hentries
    . refine ⟨⟨.file index, text, path, .file text hpackage hfile, hpath, ?_⟩, hselection⟩
      rintro fault (_ | ⟨_, hnone⟩)
      exact hnone content hcontent
  . rintro ⟨⟨field, text, path, htarget, hpath, hkind⟩, hselection⟩
    refine ⟨?_, hselection⟩
    cases htarget with
    | package text hpackage hfile =>
      have hdirectory : ∃ entries, tree.resolve true path = .ok (.directory entries) := by
        by_contra hnone
        exact hkind _ (.package index (not_exists.1 hnone))
      obtain ⟨entries, hentries⟩ := hdirectory
      exact .inl ⟨text, path, entries, hpackage, hfile, hpath, hentries⟩
    | file text hpackage hfile =>
      have hregular : ∃ content, tree.resolve true path = .ok (.file content) := by
        by_contra hnone
        exact hkind _ (.file index (not_exists.1 hnone))
      obtain ⟨content, hcontent⟩ := hregular
      exact .inr ⟨text, path, content, hpackage, hfile, hpath, hcontent⟩

theorem OverrideEntry.isValid_iff {before : List OverrideEntry} {entry : OverrideEntry}
    : entry.IsValid tree root known ↔ ∀ e, ¬ OverrideProblem tree root known before entry e := by
  rw [isValid_iff_isAimed before.length, Selection.isValid_iff]
  constructor
  . rintro ⟨⟨field, text, path, htarget, hpath, hkind⟩, hselection⟩ e hproblem
    cases hproblem with
    | target _ h =>
      rw [← target_eq_error_iff, target_eq_ok_iff.2 htarget] at h
      contradiction
    | bothLists _ _ _ h => exact hselection _ h
    | path field' text' htarget' _ fault h =>
      obtain ⟨rfl, rfl⟩ := htarget.unique htarget'
      exact hpath.not_pathProblem h
    | kind field' text' htarget' _ path' hpath' fault h =>
      obtain ⟨rfl, rfl⟩ := htarget.unique htarget'
      have hsame : path' = path := hpath'.eq_extend.trans hpath.eq_extend.symm
      exact hkind fault (hsame ▸ h)
    | selection _ _ _ _ _ _ name h => exact hselection _ h
  . intro h
    cases htarget : entry.target before.length with
    | error e => exact absurd (.target e (target_eq_error_iff.1 htarget)) (h e)
    | ok target =>
      have htarget := target_eq_ok_iff.1 htarget
      have hlists : ¬ SelectionProblem known entry.selection .bothLists :=
        fun hlists => h _ (.bothLists _ _ htarget hlists)
      have hstands : ∃ path, StandsFor tree root target.2 path :=
        exists_standsFor_iff.2 fun fault hfault => h _ (.path _ _ htarget hlists fault hfault)
      obtain ⟨path, hpath⟩ := hstands
      have hkind (fault : PathFault) : ¬ KindProblem tree path target.1 fault :=
        fun hfault => h _ (.kind _ _ htarget hlists path hpath fault hfault)
      refine ⟨⟨target.1, target.2, path, htarget, hpath, hkind⟩, fun fault hfault => ?_⟩
      cases fault with
      | bothLists => exact hlists hfault
      | unknownChecker name => exact h _ (.selection _ _ htarget path hpath hkind name hfault)

theorem Config.isValid_iff {c : Config}
    : c.IsValid compile tree root
        ↔
      c.choke ≠ some 0 ∧ Faultless (CheckerProblem compile) c.checkers
        ∧ Faultless (IgnoredProblem tree root) c.ignored
        ∧ (∀ fault, ¬ SelectionProblem c.names c.selection fault)
        ∧ Faultless (OverrideProblem tree root c.names) c.overrides := by
  have hoverrides : Faultless (OverrideProblem tree root c.names) c.overrides
      ↔ ∀ entry ∈ c.overrides, entry.IsValid tree root c.names := by
    apply faultless_iff_forall_mem
    intro before entry
    exact OverrideEntry.isValid_iff.symm
  rw [faultless_checkers_iff, faultless_ignored_iff, ← Selection.isValid_iff, hoverrides]
  constructor
  . rintro ⟨hchoke, hnodup, hcompiles, hignored, hselection, hentries⟩
    exact ⟨hchoke, ⟨hnodup, hcompiles⟩, hignored, hselection, hentries⟩
  . rintro ⟨hchoke, ⟨hnodup, hcompiles⟩, hignored, hselection, hentries⟩
    exact ⟨hchoke, hnodup, hcompiles, hignored, hselection, hentries⟩

theorem Config.isValid_iff_forall_not_hasFirst {c : Config}
    : c.IsValid compile tree root ↔ ∀ e, ¬ c.HasFirst compile tree root e := by
  rw [Config.isValid_iff]
  constructor
  . rintro ⟨hchoke, hcheckers, hignored, hselection, hoverrides⟩ e hfirst
    cases hfirst with
    | choke h => exact hchoke h
    | checkers _ _ h => exact faultless_iff_forall_not_firstProblem.1 hcheckers e h
    | ignored _ _ _ h => exact faultless_iff_forall_not_firstProblem.1 hignored e h
    | global _ _ _ fault h => exact hselection fault h
    | overrides _ _ _ _ _ h => exact faultless_iff_forall_not_firstProblem.1 hoverrides e h
  . intro h
    have hchoke : c.choke ≠ some 0 := fun hzero => h _ (.choke hzero)
    have hcheckers : Faultless (CheckerProblem compile) c.checkers :=
      faultless_iff_forall_not_firstProblem.2 fun e he => h e (.checkers hchoke e he)
    have hignored : Faultless (IgnoredProblem tree root) c.ignored :=
      faultless_iff_forall_not_firstProblem.2 fun e he => h e (.ignored hchoke hcheckers e he)
    have hselection (fault : SelectionFault) : ¬ SelectionProblem c.names c.selection fault :=
      fun hfault => h _ (.global hchoke hcheckers hignored fault hfault)
    refine ⟨hchoke, hcheckers, hignored, hselection, ?_⟩
    exact faultless_iff_forall_not_firstProblem.2 fun e he =>
      h e (.overrides hchoke hcheckers hignored hselection e he)

theorem budget?_eq_none_iff {c : Config} : c.budget? = none ↔ c.choke = some 0 := by
  unfold Config.budget?
  cases c.choke with
  | none => simp
  | some limit => simp [Budget.ofNat?]

theorem Config.HasFirst.of_resolve {c : Config} {e : PolicyError}
    (h : Policy.resolve compile tree root c = .error e) : c.HasFirst compile tree root e := by
  unfold Policy.resolve at h
  cases hbudget : c.budget? with
  | none =>
    rw [hbudget] at h
    cases h
    exact .choke (budget?_eq_none_iff.1 hbudget)
  | some budget =>
    have hchoke : c.choke ≠ some 0 := by
      rw [ne_eq, ← budget?_eq_none_iff, hbudget]
      simp
    simp only [hbudget, bind_eq_error_iff, mapError_eq_error_iff] at h
    rcases h with h | ⟨registry, hregistry, h⟩
    . exact .checkers hchoke e (resolveCheckers_eq_error_iff.1 h)
    have hcheckers := exists_resolveCheckers_iff.1 ⟨registry, hregistry⟩
    have hknown := contains_of_resolveCheckers hregistry
    rcases h with h | ⟨ignored, hset, h⟩
    . exact .ignored hchoke hcheckers e (resolveIgnored_eq_error_iff.1 h)
    have hignored := exists_resolveIgnored_iff.1 ⟨ignored, hset⟩
    rcases h with ⟨fault, hfault, rfl⟩ | ⟨global, hglobal, h⟩
    . exact .global hchoke hcheckers hignored fault ((apply_eq_error_iff hknown).1 hfault)
    have hselection := (exists_apply_iff hknown).1 ⟨global, mapError_eq_ok_iff.1 hglobal⟩
    rcases h with h | ⟨_, _, h⟩
    . have hfirst := (resolveOverrides_eq_error_iff hknown).1 h
      exact .overrides hchoke hcheckers hignored hselection e hfirst
    . contradiction

theorem Config.HasFirst.resolve_eq {c : Config} {e : PolicyError}
    (h : c.HasFirst compile tree root e) : Policy.resolve compile tree root c = .error e := by
  unfold Policy.resolve
  cases hbudget : c.budget? with
  | none =>
    have hzero := budget?_eq_none_iff.1 hbudget
    cases h with
    | choke _ => rfl
    | checkers hchoke | ignored hchoke | global hchoke | overrides hchoke => exact absurd hzero hchoke
  | some budget =>
    simp only [bind_eq_error_iff, mapError_eq_error_iff]
    cases h with
    | choke hzero =>
      rw [← budget?_eq_none_iff, hbudget] at hzero
      contradiction
    | checkers _ _ h => exact .inl (resolveCheckers_eq_error_iff.2 h)
    | ignored _ hcheckers _ h =>
      obtain ⟨registry, hregistry⟩ := exists_resolveCheckers_iff.2 hcheckers
      exact .inr ⟨registry, hregistry, .inl (resolveIgnored_eq_error_iff.2 h)⟩
    | global _ hcheckers hignored fault h =>
      obtain ⟨registry, hregistry⟩ := exists_resolveCheckers_iff.2 hcheckers
      obtain ⟨ignored, hset⟩ := exists_resolveIgnored_iff.2 hignored
      have hfault := (apply_eq_error_iff (contains_of_resolveCheckers hregistry)).2 h
      exact .inr ⟨registry, hregistry, .inr ⟨ignored, hset, .inl ⟨fault, hfault, rfl⟩⟩⟩
    | overrides _ hcheckers hignored hselection _ h =>
      obtain ⟨registry, hregistry⟩ := exists_resolveCheckers_iff.2 hcheckers
      obtain ⟨ignored, hset⟩ := exists_resolveIgnored_iff.2 hignored
      have hknown := contains_of_resolveCheckers hregistry
      obtain ⟨global, hglobal⟩ := (exists_apply_iff hknown).2 hselection
      have herror := (resolveOverrides_eq_error_iff hknown).2 h
      refine .inr ⟨registry, hregistry, .inr ⟨ignored, hset, .inr ⟨global, ?_, .inl herror⟩⟩⟩
      exact mapError_eq_ok_iff.2 hglobal

theorem Policy.resolve_eq_error_iff {c : Config} {e : PolicyError}
    : Policy.resolve compile tree root c = .error e ↔ c.HasFirst compile tree root e :=
  ⟨.of_resolve, fun h => h.resolve_eq⟩

/--
Resolution succeeds exactly on the valid configurations, and reports the first condition that another
one violates.
-/
theorem Policy.resolve_reports_first (compile : PatternCompiler P) (tree : FileTree) (root : Path)
    (c : Config)
    : ((∃ policy, Policy.resolve compile tree root c = .ok policy) ↔ c.IsValid compile tree root)
        ∧ ∀ e, Policy.resolve compile tree root c = .error e ↔ c.HasFirst compile tree root e := by
  refine ⟨?_, fun e => Policy.resolve_eq_error_iff⟩
  rw [Config.isValid_iff_forall_not_hasFirst]
  simp only [← Policy.resolve_eq_error_iff]
  cases Policy.resolve compile tree root c <;> simp

end Valid

end PatternLint
