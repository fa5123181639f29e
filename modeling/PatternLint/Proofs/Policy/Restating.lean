import PatternLint.Proofs.Policy.Meaning
import PatternLint.Proofs.Schedule.Visibility

/-!
This module contains what it takes to restate a policy: an override that names the checkers in force
where it applies is accepted, and puts just these checkers in force there.
-/

namespace PatternLint

variable {P : Type} {tree : FileTree} {root path : Path} {text : String}
  {registry set : CheckerSet P} {policy : Policy P}

def CheckerSet.selection (set : CheckerSet P) : Selection :=
  ⟨some set.names, none⟩

def Policy.overriding (policy : Policy P) (path : Path) (set : CheckerSet P) : Policy P :=
  { policy with overrides := policy.overrides.insert path.components (path, set) }

theorem CheckerSet.IsPart.find? (h : registry.IsPart set) {name : String} {c : Checker P}
    (hfound : set.find? name = some c) : registry.find? name = some c := by
  have hname := CheckerSet.name_of_find? hfound
  subst hname
  rw [← CheckerSet.mem_checkers_iff] at hfound ⊢
  exact h.subset c hfound

theorem apply_selection (h : registry.IsPart set) : set.selection.apply registry = .ok set := by
  have hknown (name : String) : registry.contains name = true ↔ name ∈ registry.names := by
    rw [CheckerSet.contains_eq_isSome, Option.isSome_iff_exists, CheckerSet.mem_names_iff]
  have hnames : ∀ name ∈ set.names, name ∈ registry.names := by
    intro name hname
    obtain ⟨c, hc⟩ := CheckerSet.mem_names_iff.1 hname
    exact CheckerSet.mem_names_iff.2 ⟨c, h.find? hc⟩
  have hvalid : set.selection.IsValid registry.names := by
    refine ⟨.inr rfl, ?_⟩
    rintro names ⟨⟩
    exact hnames
  obtain ⟨result, hresult⟩ := (exists_apply_iff hknown).2 (Selection.isValid_iff.1 hvalid)
  rw [hresult]
  congr 1
  apply CheckerSet.eq_of_find?_eq
  intro name
  apply Option.ext
  intro c
  rw [find?_of_apply hresult]
  constructor
  . rintro ⟨hfound, hselects⟩
    obtain ⟨other, hother⟩ := CheckerSet.mem_names_iff.1 hselects
    rw [h.find? hother] at hfound
    rw [hother, hfound]
  . intro hfound
    exact ⟨h.find? hfound, CheckerSet.mem_names_iff.2 ⟨c, hfound⟩⟩

theorem resolve_file_restating (hpath : projectPath tree root text = .ok path)
    (hfile : tree.isFile path = true) (h : registry.IsPart set) (index : Nat)
    : OverrideEntry.resolve tree root registry index ⟨none, some text, set.selection⟩
        =
      .ok (path, set) := by
  rw [resolve_eq_ok_iff_of_hasTarget (.file text rfl rfl)]
  exact ⟨projectPath_eq_ok_iff.1 hpath, if_pos hfile, apply_selection h⟩

theorem resolve_package_restating (hpath : projectPath tree root text = .ok path)
    (hdirectory : tree.isDirectory path = true) (h : registry.IsPart set) (index : Nat)
    : OverrideEntry.resolve tree root registry index ⟨some text, none, set.selection⟩
        =
      .ok (path, set) := by
  rw [resolve_eq_ok_iff_of_hasTarget (.package text rfl rfl)]
  exact ⟨projectPath_eq_ok_iff.1 hpath, if_pos hdirectory, apply_selection h⟩

namespace Policy

theorem resolve_overriding {compile : PatternCompiler P} {c : Config} {entry : OverrideEntry}
    (h : Policy.resolve compile tree root c = .ok policy)
    (hentry : entry.resolve tree root policy.registry c.overrides.length = .ok (path, set))
    : Policy.resolve compile tree root { c with overrides := c.overrides ++ [entry] }
        =
      .ok (policy.overriding path set) := by
  obtain ⟨hroot, hbudget, hregistry, hignored, hglobal, hoverrides⟩ := resolve_eq_ok_iff.1 h
  refine resolve_eq_ok_iff.2 ⟨hroot, hbudget, hregistry, hignored, hglobal, ?_⟩
  apply resolveOverridesFrom_snoc hoverrides
  rw [Nat.zero_add]
  exact hentry

theorem admits_overriding (policy : Policy P) (path : Path) (set : CheckerSet P)
    : (policy.overriding path set).admits = policy.admits := by
  rfl

theorem isIgnored_overriding (policy : Policy P) (path : Path) (set : CheckerSet P)
    : (policy.overriding path set).isIgnored = policy.isIgnored := by
  rfl

theorem root_overriding (policy : Policy P) (path : Path) (set : CheckerSet P)
    : (policy.overriding path set).root = policy.root := by
  rfl

theorem overrideFor?_overriding (policy : Policy P) (path : Path) (set : CheckerSet P) (q : Path)
    : (policy.overriding path set).overrideFor? q
        =
      if path.components = q.components then some set else policy.overrideFor? q := by
  unfold overriding overrideFor?
  split
  . next hsame =>
    rw [← hsame, SortedMap.find?_insert_self]
    rfl
  . next hother => rw [SortedMap.find?_insert_of_ne hother]

theorem checkersFor_overriding (policy : Policy P) (path q : Path)
    : (policy.overriding path (policy.checkersFor path)).checkersFor q = policy.checkersFor q := by
  unfold checkersFor
  rw [overrideFor?_overriding]
  split
  . next hsame =>
    rw [policy.overrideFor?_congr hsame]
    rfl
  . rfl

theorem inForce_of_isChildOf (policy : Policy P) {file directory : Path}
    (h : file.IsChildOf directory)
    : policy.inForce file = (policy.overrideFor? file).getD (policy.checkersFor directory) := by
  obtain ⟨name, hname⟩ := h
  obtain ⟨parent, hparent, hsame⟩ := Path.components_parent? hname
  unfold inForce
  rw [hparent]
  cases policy.overrideFor? file with
  | some set => rfl
  | none => exact policy.checkersFor_congr hsame

theorem inForce_overriding (policy : Policy P) {path file directory : Path}
    (h : file.IsChildOf directory) (hpath : path.components ≠ directory.components)
    : (policy.overriding path (policy.inForce path)).inForce file = policy.inForce file := by
  have hdirectory : (policy.overriding path (policy.inForce path)).checkersFor directory
      = policy.checkersFor directory := by
    unfold checkersFor
    rw [overrideFor?_overriding, if_neg hpath]
    rfl
  rw [inForce_of_isChildOf _ h, inForce_of_isChildOf _ h, hdirectory, overrideFor?_overriding]
  split
  . next hsame =>
    have hchild : path.IsChildOf directory := by
      unfold Path.IsChildOf at h ⊢
      rw [hsame]
      exact h
    rw [inForce_of_isChildOf _ hchild, policy.overrideFor?_congr hsame]
    rfl
  . rfl

end Policy

theorem isPart_inForce {compile : PatternCompiler P} {c : Config}
    (h : Policy.resolve compile tree root c = .ok policy) (q : Path)
    : policy.registry.IsPart (policy.inForce q) := by
  unfold Policy.inForce
  cases hoverride : policy.overrideFor? q with
  | some set => exact isPart_of_overrideFor? h hoverride
  | none =>
    cases q.parent? with
    | none => exact (global_yields h).isPart
    | some parent => exact isPart_checkersFor h parent

end PatternLint
