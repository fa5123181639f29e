import Mathlib.Data.List.Basic
import PatternLint.Policy.Resolve
import PatternLint.Proofs.Except
import PatternLint.Proofs.FileTree
import PatternLint.Proofs.SortedMap

/-!
This module contains the laws of resolution: what a configuration needs to make a policy, which paths
it leaves out, and that all of them stand below the root.
-/

namespace PatternLint

variable {P : Type}

namespace PathSet

theorem has_add_iff {s : PathSet} {p q : Path}
    : (s.add p).has q = true ↔ p.components = q.components ∨ s.has q = true := by
  apply SortedMap.contains_insertNew

theorem has_foldl_add_iff {s : PathSet} {paths : List Path} {q : Path}
    : (paths.foldl add s).has q = true
        ↔
      (∃ p ∈ paths, p.components = q.components) ∨ s.has q = true := by
  induction paths generalizing s with
  | nil => simp
  | cons p paths ih =>
    rw [List.foldl_cons, ih, has_add_iff, List.exists_mem_cons_iff]
    constructor
    . rintro (hrest | hfirst | hset)
      . exact .inl (.inr hrest)
      . exact .inl (.inl hfirst)
      . exact .inr hset
    . rintro ((hfirst | hrest) | hset)
      . exact .inr (.inl hfirst)
      . exact .inl hrest
      . exact .inr (.inr hset)

def IsWith (more ignored : PathSet) (path : Path) : Prop :=
  ∀ q, more.has q = (ignored.has q || path.isSame q)

theorem isWith_foldl_add (before after : List Path) (path : Path)
    : IsWith ((before ++ path :: after).foldl add .empty) ((before ++ after).foldl add .empty)
        path := by
  intro q
  rw [Bool.eq_iff_iff, Bool.or_eq_true, has_foldl_add_iff, has_foldl_add_iff]
  unfold Path.isSame
  rw [decide_eq_true_eq]
  simp only [List.mem_append, List.mem_cons]
  constructor
  . rintro (⟨p, hp | rfl | hp, hsame⟩ | hset)
    . exact .inl (.inl ⟨p, .inl hp, hsame⟩)
    . exact .inr hsame
    . exact .inl (.inl ⟨p, .inr hp, hsame⟩)
    . exact .inl (.inr hset)
  . rintro ((⟨p, hp | hp, hsame⟩ | hset) | hsame)
    . exact .inl ⟨p, .inl hp, hsame⟩
    . exact .inl ⟨p, .inr (.inr hp), hsame⟩
    . exact .inr hset
    . exact .inl ⟨path, .inr (.inl rfl), hsame⟩

end PathSet

section Ignored

variable {tree : FileTree} {root : Path}

theorem resolveIgnoredFrom_eq_ok_iff {index : Nat} {set result : PathSet} {texts : List String}
    : resolveIgnoredFrom tree root index set texts = .ok result
        ↔
      ∃ paths : List Path, texts.map (projectPath tree root) = paths.map .ok
        ∧ result = paths.foldl PathSet.add set := by
  induction texts generalizing index set with
  | nil =>
    rw [resolveIgnoredFrom]
    constructor
    . intro h
      cases h
      exact ⟨[], rfl, rfl⟩
    . rintro ⟨paths, hpaths, rfl⟩
      rw [List.map_nil, eq_comm, List.map_eq_nil_iff] at hpaths
      rw [hpaths]
      rfl
  | cons text texts ih =>
    rw [resolveIgnoredFrom, List.map_cons]
    cases projectPath tree root text with
    | error fault =>
      constructor
      . intro h
        contradiction
      . rintro ⟨paths, hpaths, _⟩
        cases paths with
        | nil => contradiction
        | cons path paths =>
          injection hpaths with hfirst _
          contradiction
    | ok path =>
      dsimp
      rw [ih]
      constructor
      . rintro ⟨paths, hpaths, rfl⟩
        exact ⟨path :: paths, by rw [hpaths]; rfl, rfl⟩
      . rintro ⟨paths, hpaths, rfl⟩
        cases paths with
        | nil => contradiction
        | cons other paths =>
          injection hpaths with hfirst hrest
          injection hfirst with hfirst
          subst hfirst
          exact ⟨paths, hrest, rfl⟩

theorem resolveIgnored_with {before after : List String} {text : String} {path : Path}
    {ignored : PathSet} (hpath : projectPath tree root text = .ok path)
    (h : resolveIgnored tree root (before ++ after) = .ok ignored)
    : ∃ more, resolveIgnored tree root (before ++ text :: after) = .ok more
        ∧ more.IsWith ignored path := by
  unfold resolveIgnored at h ⊢
  obtain ⟨paths, hpaths, rfl⟩ := resolveIgnoredFrom_eq_ok_iff.1 h
  rw [List.map_append] at hpaths
  -- the numbers of the texts only show up in errors, so the same paths are accepted
  obtain ⟨first, rest, rfl, hfirst, hrest⟩ := List.map_eq_append_iff.1 hpaths.symm
  refine ⟨_, resolveIgnoredFrom_eq_ok_iff.2 ⟨first ++ path :: rest, ?_, rfl⟩, ?_⟩
  . rw [List.map_append, List.map_cons, List.map_append, List.map_cons, hfirst, hrest, hpath]
  . apply PathSet.isWith_foldl_add

end Ignored

section ProjectPath

theorem Path.isName_of_mem_components {p : Path} {name : RawText}
    (h : .normal name ∈ p.components) : IsName name := by
  have hparts : ∃ part ∈ p.split.2, componentOfPart? part = some (.normal name) := by
    unfold components at h
    dsimp at h
    rw [List.mem_append] at h
    rcases h with h | h
    . cases hanchor : p.split.1 <;> simp [hanchor, Anchor.components] at h
    . exact List.mem_filterMap.1 h
  obtain ⟨part, hpart, hname⟩ := hparts
  have hslash := no_slash_split hpart
  unfold componentOfPart? at hname
  split at hname
  . contradiction
  . contradiction
  . cases hname
  . next hempty hdot hdots =>
    injection hname with hname
    injection hname with hname
    subst hname
    refine ⟨?_, ?_, ?_, hslash⟩
    . intro heq
      exact hempty (RawText.toList_inj.2 heq)
    . intro heq
      exact hdot (RawText.toList_inj.2 heq)
    . intro heq
      exact hdots (RawText.toList_inj.2 heq)

theorem Path.mem_of_normalNames? {p : Path} {names : List RawText} (h : p.normalNames? = some names)
    : ∀ name ∈ names, .normal name ∈ p.components := by
  unfold normalNames? at h
  generalize p.components = components at h ⊢
  induction components generalizing names with
  | nil =>
    cases h
    simp
  | cons component components ih =>
    rw [List.foldr_cons] at h
    cases component with
    | normal first =>
      dsimp at h
      rw [Option.map_eq_some_iff] at h
      obtain ⟨rest, hrest, rfl⟩ := h
      intro name hname
      rcases List.mem_cons.1 hname with rfl | hname
      . exact List.mem_cons_self
      . exact List.mem_cons_of_mem _ (ih hrest name hname)
    | current =>
      intro name hname
      exact List.mem_cons_of_mem _ (ih h name hname)
    | parent => contradiction
    | root => contradiction

theorem isPrefix_of_projectPath {tree : FileTree} {root path : Path} {text : String}
    (h : projectPath tree root text = .ok path) : root.components <+: path.components := by
  unfold projectPath at h
  dsimp at h
  split at h
  . contradiction
  . split at h
    . contradiction
    . split at h
      . contradiction
      . next names hnames =>
        split at h
        . cases h
          rw [Path.components_extend]
          . apply List.prefix_append
          . intro name hname
            exact Path.isName_of_mem_components (Path.mem_of_normalNames? hnames name hname)
        . contradiction

end ProjectPath

theorem Policy.resolve_eq_ok_iff {compile : PatternCompiler P} {tree : FileTree} {root : Path}
    {c : Config} {policy : Policy P}
    : Policy.resolve compile tree root c = .ok policy
        ↔
      policy.root = root ∧ c.budget? = some policy.budget
        ∧ resolveCheckers compile c.checkers = .ok policy.registry
        ∧ resolveIgnored tree root c.ignored = .ok policy.ignored
        ∧ (c.selection.apply policy.registry).mapError (PolicyError.selection globalScope)
          = .ok policy.global
        ∧ resolveOverrides tree root policy.registry c.overrides = .ok policy.overrides := by
  unfold Policy.resolve
  cases hbudget : c.budget? with
  | none => simp [throw, throwThe, MonadExceptOf.throw]
  | some budget =>
    simp only [bind_eq_ok_iff]
    constructor
    . rintro ⟨registry, hregistry, ignored, hignored, global, hglobal, overrides, hoverrides, h⟩
      cases h
      exact ⟨rfl, rfl, hregistry, hignored, hglobal, hoverrides⟩
    . rintro ⟨rfl, h, hregistry, hignored, hglobal, hoverrides⟩
      injection h with h
      subst h
      exact ⟨_, hregistry, _, hignored, _, hglobal, _, hoverrides, rfl⟩

theorem Policy.resolve_with {compile : PatternCompiler P} {tree : FileTree} {root path : Path}
    {c : Config} {policy : Policy P} {before after : List String} {text : String}
    (hpath : projectPath tree root text = .ok path) (hignored : c.ignored = before ++ after)
    (h : Policy.resolve compile tree root c = .ok policy)
    : ∃ more, Policy.resolve compile tree root { c with ignored := before ++ text :: after }
          = .ok { policy with ignored := more }
        ∧ more.IsWith policy.ignored path := by
  obtain ⟨hroot, hbudget, hregistry, hset, hglobal, hoverrides⟩ := Policy.resolve_eq_ok_iff.1 h
  rw [hignored] at hset
  obtain ⟨more, hmore, hwith⟩ := resolveIgnored_with hpath hset
  refine ⟨more, ?_, hwith⟩
  exact Policy.resolve_eq_ok_iff.2 ⟨hroot, hbudget, hregistry, hmore, hglobal, hoverrides⟩

end PatternLint
