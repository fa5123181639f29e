import PatternLint.Proofs.Policy.Meaning

/-!
This module contains what the stages of resolution come to. A stage succeeds under a condition on what
is in its list, and its result is determined by what is in it, so neither depends on how the stage goes
through the list. Of the overrides, those for one path have to keep their order.
-/

namespace PatternLint

variable {P : Type}

/-! ### Checkers -/

theorem resolveCheckers_eq_ok_iff {compile : PatternCompiler P} {entries : List CheckerEntry}
    {registry : CheckerSet P}
    : resolveCheckers compile entries = .ok registry
        ↔
      ((entries.map CheckerEntry.name).Nodup
          ∧ ∀ entry ∈ entries, ∃ pattern, compile entry.pattern = .ok pattern)
        ∧ ∀ c, c ∈ registry.checkers ↔ ∃ entry ∈ entries, entry.CompilesTo compile c := by
  rw [← faultless_checkers_iff, ← exists_resolveCheckers_iff]
  constructor
  . intro h
    exact ⟨⟨registry, h⟩, fun c => mem_checkers_of_resolveCheckers h⟩
  . rintro ⟨⟨other, hother⟩, hmem⟩
    rw [hother]
    congr 1
    apply CheckerSet.eq_of_mem_iff
    intro c
    rw [mem_checkers_of_resolveCheckers hother, hmem]

theorem mem_names_of_resolveCheckers {compile : PatternCompiler P} {entries : List CheckerEntry}
    {registry : CheckerSet P} (h : resolveCheckers compile entries = .ok registry) (name : String)
    : name ∈ registry.names ↔ name ∈ entries.map CheckerEntry.name := by
  rw [← CheckerSet.contains_iff, contains_of_resolveCheckers h]

/-! ### Paths to leave out -/

section Ignored

variable {tree : FileTree} {root : Path}

theorem find?_foldl_add {paths : List Path} {set : PathSet} {key : List Path.Component} {path : Path}
    (hinj : ∀ p ∈ paths, ∀ q ∈ paths, p.components = q.components → p = q)
    : (paths.foldl PathSet.add set).find? key = some path
        ↔
      set.find? key = some path
        ∨ set.find? key = none ∧ path.components = key ∧ path ∈ paths := by
  induction paths generalizing set with
  | nil => simp
  | cons p paths ih =>
    have hrest : ∀ q ∈ paths, ∀ r ∈ paths, q.components = r.components → q = r :=
      fun q hq r hr => hinj q (List.mem_cons_of_mem _ hq) r (List.mem_cons_of_mem _ hr)
    have hfirst := hinj p List.mem_cons_self
    rw [List.foldl_cons, ih hrest]
    unfold PathSet.add
    rw [SortedMap.find?_insertNew]
    cases set.find? key with
    | some other => simp
    | none =>
      rw [Option.none_or]
      -- of the paths for the key, the first one stays, and the others are equal to it
      by_cases hkey : p.components = key
      . rw [if_pos hkey]
        grind
      . rw [if_neg hkey]
        grind

theorem resolveIgnored_eq_ok_iff {texts : List String} {ignored : PathSet}
    : resolveIgnored tree root texts = .ok ignored
        ↔
      (∀ text ∈ texts, ∃ path, StandsFor tree root text path)
        ∧ ∀ key path, ignored.find? key = some path
          ↔ path.components = key ∧ ∃ text ∈ texts, StandsFor tree root text path := by
  rw [← faultless_ignored_iff, ← exists_resolveIgnored_iff]
  have hfind {ignored : PathSet} (h : resolveIgnored tree root texts = .ok ignored)
      (key : List Path.Component) (path : Path)
      : ignored.find? key = some path
        ↔ path.components = key ∧ ∃ text ∈ texts, StandsFor tree root text path := by
    obtain ⟨paths, hpaths, rfl⟩ := resolveIgnoredFrom_eq_ok_iff.1 h
    have hmem (p : Path) : p ∈ paths ↔ ∃ text ∈ texts, StandsFor tree root text p := by
      simp only [← projectPath_eq_ok_iff]
      rw [← List.mem_map, hpaths]
      simp
    have hinj : ∀ p ∈ paths, ∀ q ∈ paths, p.components = q.components → p = q := by
      intro p hp q hq hsame
      obtain ⟨_, _, hp⟩ := (hmem p).1 hp
      obtain ⟨_, _, hq⟩ := (hmem q).1 hq
      exact hp.unique hq hsame
    rw [find?_foldl_add hinj, hmem]
    simp
  constructor
  . intro h
    exact ⟨⟨ignored, h⟩, hfind h⟩
  . rintro ⟨⟨other, hother⟩, hignored⟩
    rw [hother]
    congr 1
    apply SortedMap.eq_of_find?_eq
    intro key
    apply Option.ext
    intro path
    rw [hfind hother, hignored]

end Ignored

/-! ### Selections -/

section Selection

variable {registry : CheckerSet P}

theorem Selection.Yields.unique {s : Selection} {set set' : CheckerSet P} (h : s.Yields registry set)
    (h' : s.Yields registry set') : set = set' := by
  apply CheckerSet.eq_of_mem_iff
  intro c
  rw [h, h']

theorem apply_eq_ok_iff {s : Selection} {set : CheckerSet P}
    : s.apply registry = .ok set ↔ s.IsValid registry.names ∧ s.Yields registry set := by
  have hknown (name : String) : registry.contains name = true ↔ name ∈ registry.names :=
    CheckerSet.contains_iff
  rw [Selection.isValid_iff, ← exists_apply_iff hknown]
  constructor
  . intro h
    exact ⟨⟨set, h⟩, Selection.yields_of_apply h⟩
  . rintro ⟨⟨other, hother⟩, hset⟩
    rw [hother, (Selection.yields_of_apply hother).unique hset]

end Selection

/-! ### Overrides -/

section Overrides

variable {tree : FileTree} {root : Path} {registry : CheckerSet P}

structure OverrideEntry.Sets (tree : FileTree) (root : Path) (registry : CheckerSet P)
    (entry : OverrideEntry) (target : Path × CheckerSet P) : Prop where
  aimed : ∃ field text, entry.HasTarget 0 field text ∧ StandsFor tree root text target.1
    ∧ targetFault? tree target.1 field = none
  selected : entry.selection.apply registry = .ok target.2

theorem resolve_eq_ok_iff_sets {entry : OverrideEntry} {index : Nat} {target : Path × CheckerSet P}
    : entry.resolve tree root registry index = .ok target ↔ entry.Sets tree root registry target := by
  constructor
  . intro h
    obtain ⟨field, text, htarget⟩ := exists_hasTarget_of_resolve h
    obtain ⟨hpath, hkind, hset⟩ := (resolve_eq_ok_iff_of_hasTarget htarget).1 h
    refine ⟨?_, hset⟩
    cases htarget with
    | package text hpackage hfile => exact ⟨.package 0, text, .package text hpackage hfile, hpath, hkind⟩
    | file text hpackage hfile => exact ⟨.file 0, text, .file text hpackage hfile, hpath, hkind⟩
  . rintro ⟨⟨field, text, htarget, hpath, hkind⟩, hset⟩
    cases htarget with
    | package text hpackage hfile =>
      have htarget : entry.HasTarget index (.package index) text := .package text hpackage hfile
      exact (resolve_eq_ok_iff_of_hasTarget htarget).2 ⟨hpath, hkind, hset⟩
    | file text hpackage hfile =>
      have htarget : entry.HasTarget index (.file index) text := .file text hpackage hfile
      exact (resolve_eq_ok_iff_of_hasTarget htarget).2 ⟨hpath, hkind, hset⟩

theorem OverrideEntry.Sets.unique {entry : OverrideEntry} {target target' : Path × CheckerSet P}
    (h : entry.Sets tree root registry target) (h' : entry.Sets tree root registry target')
    : target = target' := by
  have h : entry.resolve tree root registry 0 = .ok target := resolve_eq_ok_iff_sets.2 h
  rw [resolve_eq_ok_iff_sets.2 h', Except.ok.injEq] at h
  exact h.symm

def OverrideEntry.AimsAt (tree : FileTree) (root q : Path) (entry : OverrideEntry) : Prop :=
  ∃ field text path, entry.HasTarget 0 field text ∧ StandsFor tree root text path
    ∧ targetFault? tree path field = none ∧ path.isSame q = true

theorem OverrideEntry.Sets.aimsAt_iff {entry : OverrideEntry} {target : Path × CheckerSet P}
    (h : entry.Sets tree root registry target) (q : Path)
    : entry.AimsAt tree root q ↔ target.1.components = q.components := by
  obtain ⟨⟨field, text, htarget, hpath, hkind⟩, _⟩ := h
  constructor
  . rintro ⟨field', text', path, htarget', hpath', _, hsame⟩
    have heq := target_eq_ok_iff.2 htarget'
    rw [target_eq_ok_iff.2 htarget] at heq
    cases heq
    have hsamePath := projectPath_eq_ok_iff.2 hpath'
    rw [projectPath_eq_ok_iff.2 hpath] at hsamePath
    cases hsamePath
    exact of_decide_eq_true hsame
  . intro hsame
    exact ⟨field, text, target.1, htarget, hpath, hkind, decide_eq_true hsame⟩

def overrideTable (targets : List (Path × CheckerSet P)) : PathMap (Path × CheckerSet P) :=
  targets.foldl (fun table target => table.insert target.1.components target) .empty

theorem resolveOverrides_eq_ok_iff {entries : List OverrideEntry} {table : PathMap (Path × CheckerSet P)}
    : resolveOverrides tree root registry entries = .ok table
        ↔
      ∃ targets, List.Forall₂ (OverrideEntry.Sets tree root registry) entries targets
        ∧ table = overrideTable targets := by
  unfold resolveOverrides overrideTable
  generalize 0 = index
  generalize (.empty : PathMap (Path × CheckerSet P)) = start
  induction entries generalizing index start with
  | nil => simp [resolveOverridesFrom, eq_comm]
  | cons entry entries ih =>
    rw [resolveOverridesFrom]
    cases hresolve : entry.resolve tree root registry index with
    | error e =>
      constructor
      . intro h
        contradiction
      . rintro ⟨_, hentries, _⟩
        cases hentries with
        | cons hentry _ =>
          rw [resolve_eq_ok_iff_sets.2 hentry] at hresolve
          contradiction
    | ok target =>
      have htarget := resolve_eq_ok_iff_sets.1 hresolve
      dsimp only
      rw [ih]
      constructor
      . rintro ⟨targets, htargets, rfl⟩
        exact ⟨target :: targets, .cons htarget htargets, rfl⟩
      . rintro ⟨_, hentries, rfl⟩
        cases hentries with
        | cons hother hrest =>
          cases htarget.unique hother
          exact ⟨_, hrest, rfl⟩

end Overrides

end PatternLint
