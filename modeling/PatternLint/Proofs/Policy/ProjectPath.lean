import PatternLint.Proofs.Policy.Resolve
import PatternLint.Proofs.Text.Raw

/-!
This module contains what a text in a configuration needs to stand for a path of the project, and what
is reported of a text that lacks it. The conditions have an order, and the first one that is violated
counts.
-/

namespace PatternLint

namespace Path

def Component.name? : Component → Option RawText
  | normal name => some name
  | _ => none

def names (p : Path) : List RawText :=
  p.components.filterMap Component.name?

theorem isName_of_mem_names {p : Path} {name : RawText} (h : name ∈ p.names) : IsName name := by
  obtain ⟨component, hcomponent, hnormal⟩ := List.mem_filterMap.1 h
  cases component with
  | normal other =>
    cases hnormal
    exact isName_of_mem_components hcomponent
  | root | current | parent => contradiction

theorem isAbsolute_of_root_mem {p : Path} (h : .root ∈ p.components) : p.isAbsolute = true := by
  have hanchor : p.split.1 = .root := by
    unfold components at h
    dsimp at h
    rw [List.mem_append] at h
    rcases h with h | h
    . cases hanchor : p.split.1 <;> simp [hanchor, Anchor.components] at h
      rfl
    . obtain ⟨part, _, hpart⟩ := List.mem_filterMap.1 h
      unfold componentOfPart? at hpart
      split at hpart <;> simp at hpart
  have htext := Text.intercalate_splitAt Path.slash p.text.toList
  rw [split_eq] at hanchor
  unfold splitPieces at hanchor
  split at hanchor
  . next hpieces =>
    rw [hpieces, List.intercalate_cons_cons] at htext
    unfold isAbsolute
    rw [← htext]
    rfl
  . contradiction
  . contradiction

theorem normalNames?_eq {p : Path} (h : .root ∉ p.components)
    : p.normalNames? = if .parent ∈ p.components then none else some p.names := by
  unfold normalNames? Path.names
  generalize p.components = components at h ⊢
  induction components with
  | nil => rfl
  | cons component components ih =>
    rw [List.mem_cons, not_or] at h
    rw [List.foldr_cons, ih h.2]
    cases component with
    | normal name =>
      by_cases hparent : .parent ∈ components
      . simp [hparent]
      . simp [hparent, Component.name?]
    | current =>
      rw [List.filterMap_cons_none rfl]
      simp
    | parent => simp
    | root => exact absurd rfl h.1

theorem normalNames?_of_relative {p : Path} (h : p.isAbsolute = false)
    : p.normalNames? = if .parent ∈ p.components then none else some p.names := by
  apply normalNames?_eq
  intro hroot
  rw [isAbsolute_of_root_mem hroot] at h
  contradiction

theorem isAbsolute_ofString_iff {text : String}
    : isAbsolute ⟨text⟩ = true ↔ text.toList.head? = some '/' := by
  unfold isAbsolute
  rw [decide_eq_true_iff]
  exact Text.head?_bytes (by decide) (by decide) text

end Path

section ProjectPath

variable {tree : FileTree} {root : Path} {text : String}

/-- A text stands for a path: it names something below the root, with links followed. -/
structure StandsFor (tree : FileTree) (root : Path) (text : String) (path : Path) : Prop where
  not_blank : ∃ c ∈ text.toList, Text.isBlank c = false
  relative : text.toList.head? ≠ some '/'
  inside : .parent ∉ Path.components ⟨text⟩
  eq_extend : path = root.extend (Path.names ⟨text⟩)
  found : ∃ t, tree.resolve true path = .ok t

/-- The first reason for which a text stands for no path. -/
inductive PathProblem (tree : FileTree) (root : Path) (text : String) : PathFault → Prop where
  | blank (h : ∀ c ∈ text.toList, Text.isBlank c = true) : PathProblem tree root text .blank
  | absolute (hblank : ∃ c ∈ text.toList, Text.isBlank c = false)
      (h : text.toList.head? = some '/') : PathProblem tree root text .absolute
  | escaping (hblank : ∃ c ∈ text.toList, Text.isBlank c = false)
      (hrelative : text.toList.head? ≠ some '/') (h : .parent ∈ Path.components ⟨text⟩)
      : PathProblem tree root text .escaping
  | missing (hblank : ∃ c ∈ text.toList, Text.isBlank c = false)
      (hrelative : text.toList.head? ≠ some '/') (hinside : .parent ∉ Path.components ⟨text⟩)
      (h : ∀ t, tree.resolve true (root.extend (Path.names ⟨text⟩)) ≠ .ok t)
      : PathProblem tree root text .missing

theorem has_iff {p : Path} : tree.has p = true ↔ ∃ t, tree.resolve true p = .ok t := by
  unfold FileTree.has
  cases tree.resolve true p <;> simp [Except.isOk, Except.toBool]

theorem isAllBlank_iff : Text.isAllBlank text.toList = true
    ↔ ∀ c ∈ text.toList, Text.isBlank c = true := by
  apply List.all_eq_true

theorem projectPath_cases (tree : FileTree) (root : Path) (text : String)
    : (∃ path, projectPath tree root text = .ok path ∧ StandsFor tree root text path)
        ∨ ∃ fault, projectPath tree root text = .error fault ∧ PathProblem tree root text fault := by
  unfold projectPath
  dsimp
  by_cases hblank : Text.isAllBlank text.toList = true
  . rw [if_pos hblank]
    exact .inr ⟨_, rfl, .blank (isAllBlank_iff.1 hblank)⟩
  . rw [if_neg hblank]
    rw [isAllBlank_iff, not_forall] at hblank
    simp only [not_forall, Bool.not_eq_true, exists_prop] at hblank
    by_cases hrelative : Path.isAbsolute ⟨text⟩ = true
    . rw [if_pos hrelative]
      exact .inr ⟨_, rfl, .absolute hblank (Path.isAbsolute_ofString_iff.1 hrelative)⟩
    . have hhead : text.toList.head? ≠ some '/' := by
        rwa [ne_eq, ← Path.isAbsolute_ofString_iff]
      rw [if_neg hrelative]
      rw [Bool.not_eq_true] at hrelative
      rw [Path.normalNames?_of_relative hrelative]
      by_cases hinside : .parent ∈ Path.components ⟨text⟩
      . rw [if_pos hinside]
        exact .inr ⟨_, rfl, .escaping hblank hhead hinside⟩
      . rw [if_neg hinside]
        dsimp
        split
        . next hfound => exact .inl ⟨_, rfl, hblank, hhead, hinside, rfl, has_iff.1 hfound⟩
        . next hmissing =>
          rw [has_iff, not_exists] at hmissing
          exact .inr ⟨_, rfl, .missing hblank hhead hinside hmissing⟩

theorem StandsFor.not_pathProblem {path : Path} {fault : PathFault}
    (h : StandsFor tree root text path) : ¬ PathProblem tree root text fault := by
  intro hproblem
  cases hproblem with
  | blank hblank =>
    obtain ⟨c, hc, hnot⟩ := h.not_blank
    rw [hblank c hc] at hnot
    contradiction
  | absolute _ habsolute => exact h.relative habsolute
  | escaping _ _ hescaping => exact h.inside hescaping
  | missing _ _ _ hmissing =>
    obtain ⟨t, ht⟩ := h.found
    rw [h.eq_extend] at ht
    exact hmissing t ht

theorem PathProblem.eq {fault other : PathFault} (h : PathProblem tree root text fault)
    (hother : PathProblem tree root text other) : fault = other := by
  have hblank : (∀ c ∈ text.toList, Text.isBlank c = true) →
      ¬ ∃ c ∈ text.toList, Text.isBlank c = false := by
    rintro hall ⟨c, hc, hnot⟩
    rw [hall c hc] at hnot
    contradiction
  cases h <;> cases hother <;> grind

theorem projectPath_eq_ok_iff {path : Path}
    : projectPath tree root text = .ok path ↔ StandsFor tree root text path := by
  rcases projectPath_cases tree root text with ⟨found, hfound, hstands⟩ | ⟨fault, hfault, hproblem⟩
  . rw [hfound, Except.ok.injEq, hstands.eq_extend]
    constructor
    . rintro rfl
      exact hstands.eq_extend ▸ hstands
    . intro h
      exact h.eq_extend.symm
  . rw [hfault]
    constructor
    . intro h
      contradiction
    . intro h
      exact absurd hproblem h.not_pathProblem

theorem projectPath_eq_error_iff {fault : PathFault}
    : projectPath tree root text = .error fault ↔ PathProblem tree root text fault := by
  rcases projectPath_cases tree root text with ⟨found, hfound, hstands⟩ | ⟨other, hother, hproblem⟩
  . rw [hfound]
    constructor
    . intro h
      contradiction
    . intro h
      exact absurd h hstands.not_pathProblem
  . rw [hother, Except.error.injEq]
    constructor
    . rintro rfl
      exact hproblem
    . intro h
      exact hproblem.eq h

theorem exists_names_of_projectPath {path : Path}
    (h : projectPath tree root text = .ok path)
    : ∃ names, path = root.extend names ∧ ∀ name ∈ names, Path.IsName name := by
  exact ⟨_, (projectPath_eq_ok_iff.1 h).eq_extend, fun name hname => Path.isName_of_mem_names hname⟩

theorem StandsFor.unique {text' : String} {path path' : Path} (h : StandsFor tree root text path)
    (h' : StandsFor tree root text' path') (hsame : path.components = path'.components)
    : path = path' := by
  obtain ⟨names, rfl, hnames⟩ := exists_names_of_projectPath (projectPath_eq_ok_iff.2 h)
  obtain ⟨names', rfl, hnames'⟩ := exists_names_of_projectPath (projectPath_eq_ok_iff.2 h')
  rw [Path.extend_components_inj hnames hnames' hsame]

end ProjectPath

end PatternLint
