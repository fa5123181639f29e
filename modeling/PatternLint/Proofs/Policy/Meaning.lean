import Mathlib.Data.List.Forall2
import PatternLint.Proofs.Policy.Validity

/-!
This module contains the meaning of policies. What is in force somewhere is decided by one selection
alone, which is read against all checkers that there are: that of the last override for the path, or
else that for the whole project.
-/

namespace PatternLint

variable {P : Type}

def Selection.Selects (s : Selection) (name : String) : Prop :=
  match s.enabled, s.disabled with
  | some names, _ => name ∈ names
  | none, some names => name ∉ names
  | none, none => True

def Selection.Yields (s : Selection) (registry set : CheckerSet P) : Prop :=
  ∀ checker, checker ∈ set.checkers ↔ checker ∈ registry.checkers ∧ s.Selects checker.name

def OverrideEntry.Targets (tree : FileTree) (root q : Path) (e : OverrideEntry) : Prop :=
  ∃ text path, (e.package = some text ∨ e.file = some text) ∧ StandsFor tree root text path
    ∧ path.isSame q = true

structure CheckerSet.IsPart (registry set : CheckerSet P) : Prop where
  subset : ∀ checker ∈ set.checkers, checker ∈ registry.checkers
  increasing : set.checkers.Pairwise fun c d => Text.bytes c.name < Text.bytes d.name

/-- What a policy has to be for a configuration. -/
structure Policy.Means (compile : PatternCompiler P) (tree : FileTree) (root : Path) (c : Config)
    (policy : Policy P) : Prop where
  registry : ∃ compiled, List.Forall₂ (CheckerEntry.CompilesTo compile) c.checkers compiled
    ∧ policy.registry.checkers.Perm compiled
  named : ∀ name checker, policy.registry.find? name = some checker
    ↔ checker ∈ policy.registry.checkers ∧ checker.name = name
  global : c.selection.Yields policy.registry policy.global
  notOverridden : ∀ q, policy.overrideFor? q = none ↔ ∀ entry ∈ c.overrides, ¬ entry.Targets tree root q
  overridden : ∀ q before entry after, c.overrides = before ++ entry :: after →
    entry.Targets tree root q → (∀ later ∈ after, ¬ later.Targets tree root q) →
      ∃ set, policy.overrideFor? q = some set ∧ entry.selection.Yields policy.registry set
  checkersFor : ∀ q, (∀ set, policy.overrideFor? q = some set → policy.checkersFor q = set)
    ∧ (policy.overrideFor? q = none → policy.checkersFor q = policy.global)
  global_isPart : policy.registry.IsPart policy.global
  override_isPart : ∀ q set, policy.overrideFor? q = some set → policy.registry.IsPart set
  checkersFor_isPart : ∀ q, policy.registry.IsPart (policy.checkersFor q)

/-! ### The registry -/

theorem mem_checkers_of_resolveCheckers {compile : PatternCompiler P} {entries : List CheckerEntry}
    {registry : CheckerSet P} (h : resolveCheckers compile entries = .ok registry) {c : Checker P}
    : c ∈ registry.checkers ↔ ∃ entry ∈ entries, entry.CompilesTo compile c := by
  rw [CheckerSet.mem_checkers_iff, find?_of_resolveCheckers h]
  constructor
  . rintro ⟨entry, hentry, _, hc⟩
    exact ⟨entry, hentry, hc⟩
  . rintro ⟨entry, hentry, hc⟩
    exact ⟨entry, hentry, hc.name.symm, hc⟩

theorem exists_compiled {compile : PatternCompiler P} {entries : List CheckerEntry}
    (h : ∀ entry ∈ entries, ∃ pattern, compile entry.pattern = .ok pattern)
    : ∃ compiled, List.Forall₂ (CheckerEntry.CompilesTo compile) entries compiled := by
  induction entries with
  | nil => exact ⟨[], .nil⟩
  | cons entry entries ih =>
    obtain ⟨pattern, hpattern⟩ := h entry List.mem_cons_self
    obtain ⟨compiled, hcompiled⟩ := ih fun other hother => h other (List.mem_cons_of_mem _ hother)
    exact ⟨⟨entry.name, pattern, entry.message⟩ :: compiled, .cons ⟨rfl, hpattern, rfl⟩ hcompiled⟩

theorem map_name_of_forall₂ {compile : PatternCompiler P} {entries : List CheckerEntry}
    {compiled : List (Checker P)}
    (h : List.Forall₂ (CheckerEntry.CompilesTo compile) entries compiled)
    : compiled.map Checker.name = entries.map CheckerEntry.name := by
  induction h with
  | nil => rfl
  | cons hc _ ih => rw [List.map_cons, List.map_cons, hc.name, ih]

theorem CheckerEntry.CompilesTo.unique {compile : PatternCompiler P} {entry : CheckerEntry}
    {c d : Checker P} (hc : entry.CompilesTo compile c) (hd : entry.CompilesTo compile d) : c = d := by
  have hpattern := hc.pattern.symm.trans hd.pattern
  rw [Except.ok.injEq] at hpattern
  cases c
  cases d
  rw [Checker.mk.injEq]
  exact ⟨hc.name.trans hd.name.symm, hpattern, hc.message.trans hd.message.symm⟩

theorem mem_iff_of_forall₂ {compile : PatternCompiler P} {entries : List CheckerEntry}
    {compiled : List (Checker P)}
    (h : List.Forall₂ (CheckerEntry.CompilesTo compile) entries compiled) {c : Checker P}
    : c ∈ compiled ↔ ∃ entry ∈ entries, entry.CompilesTo compile c := by
  induction h with
  | nil => simp
  | cons hd _ ih =>
    rw [List.mem_cons, ih, List.exists_mem_cons_iff]
    apply or_congr_left
    constructor
    . rintro rfl
      exact hd
    . intro hc
      exact hc.unique hd

theorem nodup_checkers (set : CheckerSet P) : set.checkers.Nodup := by
  apply set.pairwise_checkers.imp
  rintro c _ hlt rfl
  rw [beq_iff_eq.1 (SortedMap.compare_beq_self c.name)] at hlt
  contradiction

theorem registry_perm {compile : PatternCompiler P} {entries : List CheckerEntry}
    {registry : CheckerSet P} (h : resolveCheckers compile entries = .ok registry)
    : ∃ compiled, List.Forall₂ (CheckerEntry.CompilesTo compile) entries compiled
        ∧ registry.checkers.Perm compiled := by
  obtain ⟨hnodup, hcompiles⟩ := faultless_checkers_iff.1 (exists_resolveCheckers_iff.1 ⟨registry, h⟩)
  obtain ⟨compiled, hcompiled⟩ := exists_compiled hcompiles
  refine ⟨compiled, hcompiled, ?_⟩
  rw [← map_name_of_forall₂ hcompiled] at hnodup
  rw [List.perm_ext_iff_of_nodup (nodup_checkers registry) hnodup.of_map]
  intro c
  rw [mem_checkers_of_resolveCheckers h, mem_iff_of_forall₂ hcompiled]

/-! ### Selections -/

section Selection

variable {registry : CheckerSet P}

theorem find?_of_selectNamesFrom {set result : CheckerSet P} {names : List String}
    (h : selectNamesFrom registry set names = .ok result) (name : String)
    : result.find? name
        =
      (set.find? name).or (if name ∈ names then registry.find? name else none) := by
  induction names generalizing set with
  | nil =>
    cases h
    simp
  | cons first names ih =>
    rw [selectNamesFrom] at h
    split at h
    . contradiction
    . next checker hchecker =>
      rw [ih h, CheckerSet.find?_add, CheckerSet.name_of_find? hchecker, Option.or_assoc]
      congr 1
      by_cases hname : first = name
      . subst hname
        simp [hchecker]
      . simp [hname, Ne.symm hname]

theorem find?_of_apply {s : Selection} {set : CheckerSet P} (h : s.apply registry = .ok set)
    {name : String} {c : Checker P}
    : set.find? name = some c ↔ registry.find? name = some c ∧ s.Selects name := by
  unfold Selection.apply at h
  unfold Selection.Selects
  split at h
  . contradiction
  . next names henabled hdisabled =>
    rw [find?_of_selectNamesFrom h, CheckerSet.find?_empty, Option.none_or, henabled]
    dsimp
    split
    . next hmem => simp [hmem]
    . next hmem => simp [hmem]
  . next names henabled hdisabled =>
    cases h
    rw [CheckerSet.find?_filterNames, Option.filter_eq_some_iff, henabled, hdisabled]
    simp
  . next henabled hdisabled =>
    cases h
    rw [henabled, hdisabled]
    simp

theorem Selection.yields_of_apply {s : Selection} {set : CheckerSet P}
    (h : s.apply registry = .ok set) : s.Yields registry set := by
  intro checker
  rw [CheckerSet.mem_checkers_iff, CheckerSet.mem_checkers_iff]
  exact find?_of_apply h

theorem Selection.Yields.isPart {s : Selection} {set : CheckerSet P} (h : s.Yields registry set)
    : registry.IsPart set := by
  refine ⟨?_, set.pairwise_bytes⟩
  intro checker hchecker
  exact ((h checker).1 hchecker).1

end Selection

/-! ### Overrides -/

theorem exists_last_of_mem {α : Type} {p : α → Prop} {entries : List α} (h : ∃ a ∈ entries, p a)
    : ∃ before a after, entries = before ++ a :: after ∧ p a ∧ ∀ later ∈ after, ¬ p later := by
  induction entries with
  | nil => simp at h
  | cons first entries ih =>
    by_cases hrest : ∃ a ∈ entries, p a
    . obtain ⟨before, a, after, rfl, ha, hafter⟩ := ih hrest
      exact ⟨first :: before, a, after, rfl, ha, hafter⟩
    . have hfirst := (List.exists_mem_cons_iff ..).1 h
      refine ⟨[], first, entries, rfl, hfirst.resolve_right hrest, ?_⟩
      exact fun later hlater hp => hrest ⟨later, hlater, hp⟩

section Overrides

variable {tree : FileTree} {root : Path} {registry : CheckerSet P}

theorem not_bothLists_of_apply {s : Selection} {set : CheckerSet P} (h : s.apply registry = .ok set)
    : ¬ (s.enabled.isSome && s.disabled.isSome) = true := by
  unfold Selection.apply at h
  split at h
  . contradiction
  . next henabled hdisabled => simp [hdisabled]
  . next henabled hdisabled => simp [henabled]
  . next henabled hdisabled => simp [henabled]

theorem resolve_eq_ok_iff_of_hasTarget {entry : OverrideEntry} {index : Nat} {field : PathField}
    {text : String} {path : Path} {set : CheckerSet P} (h : entry.HasTarget index field text)
    : entry.resolve tree root registry index = .ok (path, set)
        ↔
      StandsFor tree root text path ∧ targetFault? tree path field = none
        ∧ entry.selection.apply registry = .ok set := by
  rw [resolve_eq_of_hasTarget h]
  constructor
  . intro h
    split at h
    . contradiction
    . split at h
      . contradiction
      . next found hfound =>
        split at h
        . contradiction
        . next hkind =>
          split at h
          . contradiction
          . next result hresult =>
            cases h
            exact ⟨projectPath_eq_ok_iff.1 hfound, hkind, hresult⟩
  . rintro ⟨hpath, hkind, hset⟩
    rw [if_neg (not_bothLists_of_apply hset), projectPath_eq_ok_iff.2 hpath]
    dsimp
    rw [hkind, hset]

theorem exists_hasTarget_of_resolve {entry : OverrideEntry} {index : Nat}
    {target : Path × CheckerSet P} (h : entry.resolve tree root registry index = .ok target)
    : ∃ field text, entry.HasTarget index field text := by
  unfold OverrideEntry.resolve at h
  cases htarget : entry.target index with
  | error e =>
    rw [htarget] at h
    contradiction
  | ok target => exact ⟨target.1, target.2, target_eq_ok_iff.1 htarget⟩

theorem OverrideEntry.HasTarget.text_iff {entry : OverrideEntry} {index : Nat} {field : PathField}
    {text other : String} (h : entry.HasTarget index field text)
    : entry.package = some other ∨ entry.file = some other ↔ text = other := by
  cases h with
  | package text hpackage hfile => simp [hpackage, hfile]
  | file text hpackage hfile => simp [hpackage, hfile]

theorem targets_iff {entry : OverrideEntry} {index : Nat} {path q : Path} {set : CheckerSet P}
    (h : entry.resolve tree root registry index = .ok (path, set))
    : entry.Targets tree root q ↔ path.components = q.components := by
  obtain ⟨field, text, htarget⟩ := exists_hasTarget_of_resolve h
  have hpath := ((resolve_eq_ok_iff_of_hasTarget htarget).1 h).1
  unfold OverrideEntry.Targets Path.isSame
  simp only [htarget.text_iff, decide_eq_true_eq]
  constructor
  . rintro ⟨_, path', rfl, hpath', hsame⟩
    rw [← hsame, hpath.eq_extend, hpath'.eq_extend]
  . intro hsame
    exact ⟨text, path, rfl, hpath, hsame⟩

theorem resolveOverridesFrom_append {index : Nat} {table : PathMap (Path × CheckerSet P)}
    {before after : List OverrideEntry}
    : resolveOverridesFrom tree root registry index table (before ++ after)
        =
      resolveOverridesFrom tree root registry index table before >>= fun table =>
        resolveOverridesFrom tree root registry (index + before.length) table after := by
  induction before generalizing index table with
  | nil => rfl
  | cons entry before ih =>
    rw [List.cons_append, resolveOverridesFrom, resolveOverridesFrom]
    cases entry.resolve tree root registry index with
    | error e => rfl
    | ok target =>
      dsimp only
      rw [ih, List.length_cons, Nat.add_assoc, Nat.add_comm 1]

theorem resolveOverridesFrom_snoc {index : Nat} {table result : PathMap (Path × CheckerSet P)}
    {before : List OverrideEntry} {entry : OverrideEntry} {path : Path} {set : CheckerSet P}
    (hbefore : resolveOverridesFrom tree root registry index table before = .ok result)
    (hentry : entry.resolve tree root registry (index + before.length) = .ok (path, set))
    : resolveOverridesFrom tree root registry index table (before ++ [entry])
        =
      .ok (result.insert path.components (path, set)) := by
  rw [resolveOverridesFrom_append, hbefore]
  dsimp [bind, Except.bind]
  rw [resolveOverridesFrom, hentry]
  rfl

theorem find?_of_not_targets {index : Nat} {table result : PathMap (Path × CheckerSet P)}
    {entries : List OverrideEntry} {q : Path}
    (h : resolveOverridesFrom tree root registry index table entries = .ok result)
    (hnone : ∀ entry ∈ entries, ¬ entry.Targets tree root q)
    : result.find? q.components = table.find? q.components := by
  induction entries generalizing index table with
  | nil =>
    cases h
    rfl
  | cons entry entries ih =>
    rw [resolveOverridesFrom] at h
    split at h
    . contradiction
    . next path set hresolve =>
      have hother := hnone entry List.mem_cons_self
      rw [targets_iff hresolve] at hother
      rw [ih h fun later hlater => hnone later (List.mem_cons_of_mem _ hlater),
        SortedMap.find?_insert_of_ne hother]

theorem find?_of_last_targets {table result : PathMap (Path × CheckerSet P)} {index : Nat}
    {before after : List OverrideEntry} {entry : OverrideEntry} {q : Path}
    (h : resolveOverridesFrom tree root registry index table (before ++ entry :: after) = .ok result)
    (htargets : entry.Targets tree root q)
    (hlast : ∀ later ∈ after, ¬ later.Targets tree root q)
    : ∃ path set, result.find? q.components = some (path, set)
        ∧ entry.selection.apply registry = .ok set := by
  rw [resolveOverridesFrom_append, bind_eq_ok_iff] at h
  obtain ⟨table', _, h⟩ := h
  rw [resolveOverridesFrom] at h
  split at h
  . contradiction
  . next path set hresolve =>
    obtain ⟨field, text, htarget⟩ := exists_hasTarget_of_resolve hresolve
    have hset := ((resolve_eq_ok_iff_of_hasTarget htarget).1 hresolve).2.2
    refine ⟨path, set, ?_, hset⟩
    rw [find?_of_not_targets h hlast, ← (targets_iff hresolve).1 htargets, SortedMap.find?_insert_self]

end Overrides

/-! ### The policy -/

section Meaning

variable {compile : PatternCompiler P} {tree : FileTree} {root : Path} {c : Config}
  {policy : Policy P}

theorem overrideFor?_of_last (h : Policy.resolve compile tree root c = .ok policy)
    {before after : List OverrideEntry} {entry : OverrideEntry} {q : Path}
    (hentries : c.overrides = before ++ entry :: after) (htargets : entry.Targets tree root q)
    (hlast : ∀ later ∈ after, ¬ later.Targets tree root q)
    : ∃ set, policy.overrideFor? q = some set ∧ entry.selection.Yields policy.registry set := by
  obtain ⟨_, _, _, _, _, hoverrides⟩ := Policy.resolve_eq_ok_iff.1 h
  rw [hentries] at hoverrides
  obtain ⟨path, set, hfound, hset⟩ := find?_of_last_targets hoverrides htargets hlast
  refine ⟨set, ?_, Selection.yields_of_apply hset⟩
  unfold Policy.overrideFor?
  rw [hfound]
  rfl

theorem overrideFor?_eq_none_iff (h : Policy.resolve compile tree root c = .ok policy) {q : Path}
    : policy.overrideFor? q = none ↔ ∀ entry ∈ c.overrides, ¬ entry.Targets tree root q := by
  constructor
  . intro hnone
    by_contra hsome
    simp only [not_forall, not_not] at hsome
    obtain ⟨entry, hentry, htargets⟩ := hsome
    obtain ⟨before, last, after, hentries, hlast, hafter⟩ := exists_last_of_mem ⟨entry, hentry, htargets⟩
    obtain ⟨set, hset, _⟩ := overrideFor?_of_last h hentries hlast hafter
    rw [hnone] at hset
    contradiction
  . intro hnone
    obtain ⟨_, _, _, _, _, hoverrides⟩ := Policy.resolve_eq_ok_iff.1 h
    unfold Policy.overrideFor?
    rw [find?_of_not_targets hoverrides hnone, SortedMap.find?_empty]
    rfl

theorem isPart_of_overrideFor? (h : Policy.resolve compile tree root c = .ok policy) {q : Path}
    {set : CheckerSet P} (hset : policy.overrideFor? q = some set) : policy.registry.IsPart set := by
  have hsome : ∃ entry ∈ c.overrides, entry.Targets tree root q := by
    by_contra hnone
    simp only [not_exists, not_and] at hnone
    rw [(overrideFor?_eq_none_iff h).2 hnone] at hset
    contradiction
  obtain ⟨before, last, after, hentries, hlast, hafter⟩ := exists_last_of_mem hsome
  obtain ⟨other, hother, hyields⟩ := overrideFor?_of_last h hentries hlast hafter
  rw [hset, Option.some.injEq] at hother
  exact hother ▸ hyields.isPart

theorem checkersFor_eq (policy : Policy P) (q : Path)
    : (∀ set, policy.overrideFor? q = some set → policy.checkersFor q = set)
        ∧ (policy.overrideFor? q = none → policy.checkersFor q = policy.global) := by
  unfold Policy.checkersFor
  constructor
  . intro set hset
    rw [hset]
    rfl
  . intro hnone
    rw [hnone]
    rfl

theorem global_yields (h : Policy.resolve compile tree root c = .ok policy)
    : c.selection.Yields policy.registry policy.global := by
  obtain ⟨_, _, _, _, hglobal, _⟩ := Policy.resolve_eq_ok_iff.1 h
  exact Selection.yields_of_apply (mapError_eq_ok_iff.1 hglobal)

theorem isPart_checkersFor (h : Policy.resolve compile tree root c = .ok policy) (q : Path)
    : policy.registry.IsPart (policy.checkersFor q) := by
  cases hoverride : policy.overrideFor? q with
  | none =>
    rw [(checkersFor_eq policy q).2 hoverride]
    exact (global_yields h).isPart
  | some set =>
    rw [(checkersFor_eq policy q).1 set hoverride]
    exact isPart_of_overrideFor? h hoverride

/-- A policy that a configuration is resolved to means what the configuration says. -/
theorem Policy.means_of_resolve (compile : PatternCompiler P) (tree : FileTree) (root : Path)
    (c : Config) (policy : Policy P) (h : Policy.resolve compile tree root c = .ok policy)
    : policy.Means compile tree root c := by
  obtain ⟨_, _, hregistry, _⟩ := Policy.resolve_eq_ok_iff.1 h
  have hyields := global_yields h
  refine ⟨registry_perm hregistry, ?_, hyields, fun q => overrideFor?_eq_none_iff h, ?_,
    checkersFor_eq policy, hyields.isPart, fun q set => isPart_of_overrideFor? h, isPart_checkersFor h⟩
  . intro name checker
    constructor
    . intro hfound
      have hname := CheckerSet.name_of_find? hfound
      subst hname
      exact ⟨CheckerSet.mem_checkers_iff.2 hfound, rfl⟩
    . rintro ⟨hmem, rfl⟩
      exact CheckerSet.mem_checkers_iff.1 hmem
  . intro q before entry after hentries htargets hlast
    exact overrideFor?_of_last h hentries htargets hlast

theorem Policy.means_of_resolve_sample
    : ∃ (tree : FileTree) (c : Config) (policy : Policy String),
        Policy.resolve .ok tree ⟨"/p"⟩ c = .ok policy ∧ policy.Means .ok tree ⟨"/p"⟩ c
          ∧ policy.global.names = ["a", "c"] ∧ (policy.checkersFor ⟨"/p/./src"⟩).names = ["a", "b"] := by
  let tree : FileTree := .directory [("p", .directory [("src", .directory [])])]
  let c : Config :=
    { Config.empty with
      checkers := [⟨"b", "2", "two"⟩, ⟨"c", "3", "three"⟩, ⟨"a", "1", "one"⟩]
      selection := ⟨none, some ["b", "missing"]⟩
      overrides := [⟨some "src", none, ⟨some ["c"], none⟩⟩, ⟨some "./src/", none, ⟨none, some ["c"]⟩⟩] }
  have hnames
      : (Policy.resolve .ok tree ⟨"/p"⟩ c).toOption.map (fun policy : Policy String =>
          (policy.global.names, (policy.checkersFor ⟨"/p/./src"⟩).names))
        = some (["a", "c"], ["a", "b"]) := by
    decide +kernel
  cases h : Policy.resolve .ok tree ⟨"/p"⟩ c with
  | error e =>
    rw [h] at hnames
    contradiction
  | ok policy =>
    rw [h] at hnames
    injection hnames with hnames
    injection hnames with hglobal hfor
    exact ⟨tree, c, policy, h, means_of_resolve .ok tree ⟨"/p"⟩ c policy h, hglobal, hfor⟩

end Meaning

end PatternLint
