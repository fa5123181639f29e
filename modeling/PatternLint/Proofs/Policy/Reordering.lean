import Mathlib.Data.List.Perm.Basic
import PatternLint.Proofs.Policy.Result
import PatternLint.Run
import PatternLint.Schedule.Traversal

/-!
This module contains the law of order. Configurations that say the same in another order, or more than
once, make the same policy, so the same is checked in the same order. What counts is the order of the
overrides for one path.
-/

namespace PatternLint

variable {P : Type}

/--
Two selections have the same lists, but for the order of their names and for how often these are named.
Of what is disabled, names without a checker do not count.
-/
structure Selection.Reorders (known : List String) (s s' : Selection) : Prop where
  enabled : Option.Rel (fun names names' => ∀ name, name ∈ names ↔ name ∈ names') s.enabled s'.enabled
  disabled : Option.Rel (fun names names' => ∀ name ∈ known, name ∈ names ↔ name ∈ names')
    s.disabled s'.disabled

structure OverrideEntry.Reorders (known : List String) (e e' : OverrideEntry) : Prop where
  package : e'.package = e.package
  file : e'.file = e.file
  selection : e.selection.Reorders known e'.selection

open Classical in
def KeepOrder (tree : FileTree) (root : Path) (entries entries' : List OverrideEntry) : Prop :=
  ∀ q, entries.filter (fun e => e.AimsAt tree root q) = entries'.filter fun e => e.AimsAt tree root q

/-- Two configurations differ only in the order of what they list, or in how often they list it. -/
structure Config.Reorders (tree : FileTree) (root : Path) (c c' : Config) : Prop where
  choke : c'.choke = c.choke
  checkers : c.checkers.Perm c'.checkers
  selection : c.selection.Reorders c.names c'.selection
  ignored : ∀ text, text ∈ c.ignored ↔ text ∈ c'.ignored
  overrides : ∃ entries, c.overrides.Perm entries ∧ KeepOrder tree root c.overrides entries
    ∧ List.Forall₂ (OverrideEntry.Reorders c.names) entries c'.overrides

section Stages

variable {compile : PatternCompiler P} {tree : FileTree} {root : Path}

theorem resolveCheckers_perm {entries entries' : List CheckerEntry} (h : entries.Perm entries')
    (registry : CheckerSet P)
    : resolveCheckers compile entries = .ok registry
        ↔
      resolveCheckers compile entries' = .ok registry := by
  simp only [resolveCheckers_eq_ok_iff, (h.map CheckerEntry.name).nodup_iff, h.mem_iff]

theorem resolveIgnored_congr {texts texts' : List String} (h : ∀ text, text ∈ texts ↔ text ∈ texts')
    (ignored : PathSet)
    : resolveIgnored tree root texts = .ok ignored
        ↔
      resolveIgnored tree root texts' = .ok ignored := by
  simp only [resolveIgnored_eq_ok_iff, h]

section Selection

variable {registry set : CheckerSet P} {known : List String} {s s' : Selection}

theorem Selection.Reorders.symm (h : s.Reorders known s') : s'.Reorders known s := by
  obtain ⟨henabled, hdisabled⟩ := h
  cases s
  cases s'
  constructor
  . cases henabled with
    | none => exact .none
    | some h => exact .some fun name => (h name).symm
  . cases hdisabled with
    | none => exact .none
    | some h => exact .some fun name hname => (h name hname).symm

theorem Selection.Reorders.mono {known' : List String} (h : s.Reorders known s')
    (hknown : ∀ name ∈ known', name ∈ known) : s.Reorders known' s' := by
  obtain ⟨henabled, hdisabled⟩ := h
  cases s
  cases s'
  refine ⟨henabled, ?_⟩
  cases hdisabled with
  | none => exact .none
  | some h => exact .some fun name hname => h name (hknown name hname)

theorem Selection.Reorders.isValid (h : s.Reorders known s') (hvalid : s.IsValid known)
    : s'.IsValid known := by
  obtain ⟨henabled, hdisabled⟩ := h
  obtain ⟨hexclusive, hnames⟩ := hvalid
  cases s
  cases s'
  constructor
  . cases henabled with
    | none => exact .inl rfl
    | some _ =>
      cases hdisabled with
      | none => exact .inr rfl
      | some _ => simp at hexclusive
  . rintro names' rfl
    cases henabled with
    | some hsame =>
      intro name hname
      exact hnames _ rfl name ((hsame name).2 hname)

theorem Selection.Reorders.selects (h : s.Reorders known s') {name : String} (hname : name ∈ known)
    (hselects : s.Selects name) : s'.Selects name := by
  obtain ⟨henabled, hdisabled⟩ := h
  cases s
  cases s'
  cases henabled with
  | some hsame => exact (hsame name).1 hselects
  | none =>
    cases hdisabled with
    | none => trivial
    | some hsame =>
      intro hmem
      exact hselects ((hsame name hname).2 hmem)

theorem Selection.Reorders.yields (h : s.Reorders registry.names s') (hyields : s.Yields registry set)
    : s'.Yields registry set := by
  intro c
  rw [hyields]
  apply and_congr_right
  intro hc
  have hname := CheckerSet.name_mem_names hc
  exact ⟨h.selects hname, h.symm.selects hname⟩

theorem apply_congr (h : s.Reorders registry.names s') (set : CheckerSet P)
    : s.apply registry = .ok set ↔ s'.apply registry = .ok set := by
  rw [apply_eq_ok_iff, apply_eq_ok_iff]
  constructor
  . rintro ⟨hvalid, hyields⟩
    exact ⟨h.isValid hvalid, h.yields hyields⟩
  . rintro ⟨hvalid, hyields⟩
    exact ⟨h.symm.isValid hvalid, h.symm.yields hyields⟩

end Selection

section Overrides

variable {registry : CheckerSet P} {entries entries' : List OverrideEntry}

theorem OverrideEntry.Reorders.sets_iff {entry entry' : OverrideEntry}
    (h : entry.Reorders registry.names entry') (target : Path × CheckerSet P)
    : entry.Sets tree root registry target ↔ entry'.Sets tree root registry target := by
  have htarget (field : PathField) (text : String)
      : entry.HasTarget 0 field text ↔ entry'.HasTarget 0 field text := by
    rw [← target_eq_ok_iff, ← target_eq_ok_iff]
    unfold OverrideEntry.target
    rw [h.package, h.file]
  constructor
  . rintro ⟨⟨field, text, haimed⟩, hselected⟩
    rw [htarget] at haimed
    exact ⟨⟨field, text, haimed⟩, (apply_congr h.selection _).1 hselected⟩
  . rintro ⟨⟨field, text, haimed⟩, hselected⟩
    rw [← htarget] at haimed
    exact ⟨⟨field, text, haimed⟩, (apply_congr h.selection _).2 hselected⟩

theorem resolveOverrides_congr
    (h : List.Forall₂ (OverrideEntry.Reorders registry.names) entries entries')
    (table : PathMap (Path × CheckerSet P))
    : resolveOverrides tree root registry entries = .ok table
        ↔
      resolveOverrides tree root registry entries' = .ok table := by
  have htargets (targets : List (Path × CheckerSet P))
      : List.Forall₂ (OverrideEntry.Sets tree root registry) entries targets
        ↔ List.Forall₂ (OverrideEntry.Sets tree root registry) entries' targets := by
    induction h generalizing targets with
    | nil => rfl
    | cons hentry _ ih => simp only [List.forall₂_cons_left_iff, hentry.sets_iff, ih]
  simp only [resolveOverrides_eq_ok_iff, htargets]

theorem keepOrder_swap (before after : List OverrideEntry) {entry other : OverrideEntry}
    (h : ∀ q, ¬ (entry.AimsAt tree root q ∧ other.AimsAt tree root q))
    : KeepOrder tree root (before ++ entry :: other :: after) (before ++ other :: entry :: after) := by
  intro q
  by_cases hentry : entry.AimsAt tree root q
  . have hother : ¬ other.AimsAt tree root q := fun hother => h q ⟨hentry, hother⟩
    simp [hentry, hother]
  . simp [List.filter_cons, hentry]

theorem filter_targets_eq {targets targets' : List (Path × CheckerSet P)}
    (horder : KeepOrder tree root entries entries')
    (h : List.Forall₂ (OverrideEntry.Sets tree root registry) entries targets)
    (h' : List.Forall₂ (OverrideEntry.Sets tree root registry) entries' targets')
    (key : List Path.Component)
    : targets.filter (fun target => target.1.components = key)
        =
      targets'.filter fun target => target.1.components = key := by
  classical
  by_cases hkey : ∃ q : Path, q.components = key
  . obtain ⟨q, rfl⟩ := hkey
    have hfilter {entries : List OverrideEntry} {targets : List (Path × CheckerSet P)}
        (h : List.Forall₂ (OverrideEntry.Sets tree root registry) entries targets)
        : List.Forall₂ (OverrideEntry.Sets tree root registry)
          (entries.filter fun entry => entry.AimsAt tree root q)
          (targets.filter fun target => target.1.components = q.components) := by
      apply List.rel_filter _ h
      intro entry target hsets
      simp only [decide_eq_true_eq]
      exact hsets.aimsAt_iff q
    have hfirst := hfilter h
    rw [horder q] at hfirst
    have hunique : Relator.RightUnique (OverrideEntry.Sets tree root registry) :=
      fun _ _ _ hsets hother => hsets.unique hother
    exact List.right_unique_forall₂' hunique hfirst (hfilter h')
  . -- no path has this key, so no target is at it
    have hnone (targets : List (Path × CheckerSet P))
        : targets.filter (fun target => target.1.components = key) = [] := by
      rw [List.filter_eq_nil_iff]
      intro target _ hsame
      exact hkey ⟨target.1, of_decide_eq_true hsame⟩
    rw [hnone, hnone]

theorem resolveOverrides_of_perm {table : PathMap (Path × CheckerSet P)}
    (hperm : entries.Perm entries') (horder : KeepOrder tree root entries entries')
    (h : resolveOverrides tree root registry entries = .ok table)
    : resolveOverrides tree root registry entries' = .ok table := by
  obtain ⟨targets, htargets, rfl⟩ := resolveOverrides_eq_ok_iff.1 h
  obtain ⟨targets', htargets', _⟩ := List.perm_comp_forall₂ hperm.symm htargets
  refine resolveOverrides_eq_ok_iff.2 ⟨targets', htargets', ?_⟩
  apply SortedMap.eq_of_find?_eq
  intro key
  unfold overrideTable
  rw [SortedMap.find?_foldl_insert_filter _ targets rfl, filter_targets_eq horder htargets htargets',
    ← SortedMap.find?_foldl_insert_filter _ targets' rfl]

end Overrides

end Stages

namespace Policy

variable {compile : PatternCompiler P} {tree : FileTree} {root : Path} {c c' : Config}

theorem resolve_congr (h : c.Reorders tree root c') (policy : Policy P)
    : Policy.resolve compile tree root c = .ok policy
        ↔
      Policy.resolve compile tree root c' = .ok policy := by
  have hbudget : c'.budget? = c.budget? := by
    unfold Config.budget?
    rw [h.choke]
  obtain ⟨entries, hperm, horder, hentries⟩ := h.overrides
  have hmoved (table : PathMap (Path × CheckerSet P))
      : resolveOverrides tree root policy.registry c.overrides = .ok table
        ↔ resolveOverrides tree root policy.registry entries = .ok table :=
    ⟨resolveOverrides_of_perm hperm horder,
      resolveOverrides_of_perm hperm.symm fun q => (horder q).symm⟩
  rw [resolve_eq_ok_iff, resolve_eq_ok_iff, hbudget, resolveCheckers_perm h.checkers,
    resolveIgnored_congr h.ignored, mapError_eq_ok_iff, mapError_eq_ok_iff, hmoved]
  apply and_congr_right
  intro _
  apply and_congr_right
  intro _
  apply and_congr_right
  intro hregistry
  -- the names of the checkers are known from here on
  have hknown : ∀ name ∈ policy.registry.names, name ∈ c.names := by
    intro name hname
    rw [mem_names_of_resolveCheckers hregistry] at hname
    exact (h.checkers.map CheckerEntry.name).mem_iff.2 hname
  have hselections := hentries.imp fun entry entry' hentry =>
    (⟨hentry.package, hentry.file, hentry.selection.mono hknown⟩
      : entry.Reorders policy.registry.names entry')
  rw [apply_congr (h.selection.mono hknown), resolveOverrides_congr hselections]

/--
The law of order. Configurations that say the same in another order, or more than once, make the same
policy, or none. Whatever provider and matcher there are, the schedule and its run are the same then.
-/
theorem resolve_reordered (compile : PatternCompiler P) (tree : FileTree) (root : Path) (c c' : Config)
    (h : c.Reorders tree root c')
    : ((∃ policy, Policy.resolve compile tree root c = .ok policy)
          ↔ ∃ policy, Policy.resolve compile tree root c' = .ok policy)
        ∧ ∀ policy policy', Policy.resolve compile tree root c = .ok policy →
          Policy.resolve compile tree root c' = .ok policy' →
            policy'.budget = policy.budget ∧ policy'.registry = policy.registry
              ∧ policy'.ignored = policy.ignored ∧ policy'.global = policy.global
              ∧ policy'.overrides = policy.overrides
              ∧ ∀ (U : Type) (provider : Provider U) (find : Matcher U P),
                Schedule.ofProject policy' provider = Schedule.ofProject policy provider
                  ∧ ∀ s, Run.ofSchedule? find policy'.budget s = Run.ofSchedule? find policy.budget s := by
  refine ⟨exists_congr (resolve_congr h), ?_⟩
  intro policy policy' hpolicy hpolicy'
  rw [resolve_congr h, hpolicy', Except.ok.injEq] at hpolicy
  subst hpolicy
  exact ⟨rfl, rfl, rfl, rfl, rfl, fun U provider find => ⟨rfl, fun s => rfl⟩⟩

section Sample

def orderTree : FileTree :=
  .directory [("p", .directory [("gen", .directory []), ("lib", .directory []), ("src", .directory [])])]

def orderConfig : Config :=
  ⟨none, [⟨"b", "2", "two"⟩, ⟨"a", "1", "one"⟩], ⟨none, some ["b"]⟩, ["gen"],
    [⟨some "src", none, ⟨some ["b", "a"], none⟩⟩, ⟨some "lib", none, ⟨none, some ["a"]⟩⟩]⟩

def reorderedConfig : Config :=
  ⟨none, [⟨"a", "1", "one"⟩, ⟨"b", "2", "two"⟩], ⟨none, some ["missing", "b", "b"]⟩, ["gen", "gen"],
    [⟨some "lib", none, ⟨none, some ["a"]⟩⟩, ⟨some "src", none, ⟨some ["a", "b", "a"], none⟩⟩]⟩

theorem reorders_sample : orderConfig.Reorders orderTree ⟨"/p"⟩ reorderedConfig := by
  refine ⟨rfl, .swap _ _ _, ⟨.none, .some (by decide)⟩, ?_, _, .swap _ _ _, keepOrder_swap [] [] ?_, ?_⟩
  . simp [orderConfig, reorderedConfig]
  . rintro q ⟨⟨_, _, _, hsrc, hpath, _, hsame⟩, ⟨_, _, _, hlib, hpath', _, hsame'⟩⟩
    cases hsrc with
    | file _ hnone _ => contradiction
    | package _ hsrc _ =>
      cases hlib with
      | file _ hnone _ => contradiction
      | package _ hlib _ =>
        cases hsrc
        cases hlib
        -- the two directories are not the same
        have hsame := (of_decide_eq_true hsame).trans (of_decide_eq_true hsame').symm
        rw [hpath.eq_extend, hpath'.eq_extend] at hsame
        revert hsame
        decide
  . refine .cons ⟨rfl, rfl, .none, .some ?_⟩ (.cons ⟨rfl, rfl, .some ?_, .none⟩ .nil)
    . simp
    . simp [or_comm]

theorem resolve_reordered_sample
    : ∃ policy policy' : Policy String, orderConfig.Reorders orderTree ⟨"/p"⟩ reorderedConfig
        ∧ Policy.resolve .ok orderTree ⟨"/p"⟩ orderConfig = .ok policy
        ∧ Policy.resolve .ok orderTree ⟨"/p"⟩ reorderedConfig = .ok policy'
        ∧ policy'.overrides = policy.overrides ∧ policy'.registry.names = ["a", "b"] := by
  have hnames
      : (Policy.resolve .ok orderTree ⟨"/p"⟩ orderConfig).toOption.map (fun policy : Policy String =>
          policy.registry.names)
        = some ["a", "b"] := by
    decide +kernel
  obtain ⟨policy, h, hnames⟩ := Option.map_eq_some_iff.1 hnames
  rw [toOption_eq_some_iff] at h
  obtain ⟨hexists, hsame⟩ :=
    resolve_reordered .ok orderTree ⟨"/p"⟩ orderConfig reorderedConfig reorders_sample
  obtain ⟨policy', h'⟩ := hexists.1 ⟨policy, h⟩
  obtain ⟨_, hregistry, _, _, hoverrides, _⟩ := hsame policy policy' h h'
  exact ⟨policy, policy', reorders_sample, h, h', hoverrides, hregistry ▸ hnames⟩

end Sample

end Policy

end PatternLint
