import PatternLint.Proofs.FileTree.Without
import PatternLint.Proofs.Policy.ProjectPath

/-!
This module contains the law of what a policy asks a file tree for: which sort of thing stands at the paths
that its configuration names, and nothing else.
-/

namespace PatternLint

open FileTree

def OverrideEntry.paths (e : OverrideEntry) : List String :=
  e.package.toList ++ e.file.toList

def Config.paths (c : Config) : List String :=
  c.ignored ++ c.overrides.flatMap OverrideEntry.paths

def NamesAlike (t t' : FileTree) (root : Path) (texts : List String) : Prop :=
  ∀ text ∈ texts, ∀ path, StandsFor t root text path ∨ StandsFor t' root text path → StandsAlike t t' path

section Alike

variable {P : Type} {t t' : FileTree} {root : Path}

theorem NamesAlike.of_subset {texts more : List String} (h : NamesAlike t t' root more) (hsubset : texts ⊆ more)
    : NamesAlike t t' root texts :=
  fun text htext => h text (hsubset htext)

theorem StandsFor.of_standsAlike {text : String} {path : Path} (h : StandsFor t root text path)
    (halike : StandsAlike t t' path) : StandsFor t' root text path := by
  refine { h with found := ?_ }
  rw [← has_iff, halike.has_eq, has_iff]
  exact h.found

theorem projectPath_eq_of_namesAlike {text : String} (h : NamesAlike t t' root [text])
    : projectPath t' root text = projectPath t root text := by
  have halike := h text List.mem_cons_self
  rcases projectPath_cases t root text with ⟨path, hpath, hstands⟩ | ⟨fault, hpath, hproblem⟩
  . rw [hpath]
    exact projectPath_eq_ok_iff.2 (hstands.of_standsAlike (halike path (.inl hstands)))
  . rw [hpath]
    rcases projectPath_cases t' root text with ⟨path, hpath', hstands⟩ | ⟨fault', hpath', hproblem'⟩
    . have hback := hstands.of_standsAlike (halike path (.inr hstands)).symm
      rw [projectPath_eq_ok_iff.2 hback] at hpath
      contradiction
    . -- which of the problems there is does not depend on the tree, unless it is the last one
      rw [hpath', Except.error.injEq]
      cases hproblem <;> cases hproblem' <;> grind

theorem targetFault?_eq_of_namesAlike {text : String} {path : Path} (h : NamesAlike t t' root [text])
    (hpath : projectPath t root text = .ok path) : targetFault? t' path = targetFault? t path := by
  have halike := h text List.mem_cons_self path (.inl (projectPath_eq_ok_iff.1 hpath))
  funext field
  cases field with
  | ignored index => rfl
  | package index =>
    unfold targetFault?
    rw [halike.isDirectory_eq]
  | file index =>
    unfold targetFault?
    rw [halike.isFile_eq]

theorem NamesAlike.of_sameBut {gone : List RawText → Bool} {texts : List String} (h : SameBut gone t t')
    (hspares : ∀ text ∈ texts, ∀ path, StandsFor t root text path → Spares gone t path)
    (hspares' : ∀ text ∈ texts, ∀ path, StandsFor t' root text path → Spares gone t' path)
    : NamesAlike t t' root texts := by
  rintro text htext path (hstands | hstands)
  . obtain ⟨_, hfound⟩ := hstands.found
    obtain ⟨_, hfound', _⟩ := h.exists_resolve (hspares text htext path hstands) hfound
    have hstands' := { hstands with found := ⟨_, hfound'⟩ }
    exact h.standsAlike (hspares text htext path hstands) (hspares' text htext path hstands')
  . obtain ⟨_, hfound⟩ := hstands.found
    obtain ⟨_, hfound', _⟩ := h.symm.exists_resolve (hspares' text htext path hstands) hfound
    have hstands' := { hstands with found := ⟨_, hfound'⟩ }
    exact h.standsAlike (hspares text htext path hstands') (hspares' text htext path hstands)

theorem OverrideEntry.mem_paths_of_target {e : OverrideEntry} {index : Nat} {field : PathField} {text : String}
    (h : e.target index = .ok (field, text)) : text ∈ e.paths := by
  unfold target at h
  unfold paths
  split at h
  . next hpackage _ =>
    cases h
    simp [hpackage]
  . next _ hfile =>
    cases h
    simp [hfile]
  . contradiction
  . contradiction

theorem OverrideEntry.resolve_eq_of_namesAlike {e : OverrideEntry} (h : NamesAlike t t' root e.paths)
    (registry : CheckerSet P) (index : Nat)
    : e.resolve t' root registry index = e.resolve t root registry index := by
  unfold resolve
  cases htarget : e.target index with
  | error error => rfl
  | ok target =>
    obtain ⟨field, text⟩ := target
    have htext : NamesAlike t t' root [text] :=
      h.of_subset (by simpa using mem_paths_of_target htarget)
    dsimp only [bind, Except.bind]
    rw [projectPath_eq_of_namesAlike htext]
    cases hpath : projectPath t root text with
    | error fault => rfl
    | ok path =>
      dsimp only [Except.mapError]
      rw [targetFault?_eq_of_namesAlike htext hpath]

theorem resolveIgnoredFrom_eq_of_namesAlike {texts : List String} (h : NamesAlike t t' root texts)
    (index : Nat) (set : PathSet)
    : resolveIgnoredFrom t' root index set texts = resolveIgnoredFrom t root index set texts := by
  induction texts generalizing index set with
  | nil => rfl
  | cons text texts ih =>
    rw [resolveIgnoredFrom, resolveIgnoredFrom, projectPath_eq_of_namesAlike (h.of_subset (by simp))]
    cases projectPath t root text with
    | error fault => rfl
    | ok path => exact ih (h.of_subset (List.subset_cons_self _ _)) _ _

theorem resolveOverridesFrom_eq_of_namesAlike {entries : List OverrideEntry}
    (h : NamesAlike t t' root (entries.flatMap OverrideEntry.paths)) (registry : CheckerSet P) (index : Nat)
    (table : PathMap (Path × CheckerSet P))
    : resolveOverridesFrom t' root registry index table entries
        = resolveOverridesFrom t root registry index table entries := by
  induction entries generalizing index table with
  | nil => rfl
  | cons entry entries ih =>
    rw [List.flatMap_cons] at h
    rw [resolveOverridesFrom, resolveOverridesFrom,
      OverrideEntry.resolve_eq_of_namesAlike (h.of_subset (List.subset_append_left _ _))]
    cases entry.resolve t root registry index with
    | error error => rfl
    | ok target => exact ih (h.of_subset (List.subset_append_right _ _)) _ _

theorem Policy.resolve_eq_of_namesAlike {c : Config} (h : NamesAlike t t' root c.paths)
    (compile : PatternCompiler P) : resolve compile t' root c = resolve compile t root c := by
  unfold resolve resolveIgnored resolveOverrides
  rw [resolveIgnoredFrom_eq_of_namesAlike (h.of_subset (List.subset_append_left _ _))]
  simp only [resolveOverridesFrom_eq_of_namesAlike (h.of_subset (List.subset_append_right _ _))]

end Alike

end PatternLint
