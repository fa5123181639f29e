import PatternLint.Proofs.Policy.Result

/-!
This module contains what becomes of a policy if its configuration loses a checker. The checker is no
longer in force anywhere, and all else stays as it is: also where no checker is left in force, the set
for a path does not turn into another one.
-/

namespace PatternLint

variable {P : Type}

def Selection.withdraw (name : String) (s : Selection) : Selection :=
  { s with enabled := s.enabled.map fun names => names.filter fun other => other ≠ name }

def OverrideEntry.withdraw (name : String) (e : OverrideEntry) : OverrideEntry :=
  { e with selection := e.selection.withdraw name }

def Config.withdraw (name : String) (c : Config) : Config :=
  { c with
    checkers := c.checkers.filter fun entry => entry.name ≠ name
    selection := c.selection.withdraw name
    overrides := c.overrides.map (OverrideEntry.withdraw name) }

def CheckerSet.withdraw (name : String) (s : CheckerSet P) : CheckerSet P :=
  s.filterNames fun other => other ≠ name

def Policy.withdraw (name : String) (policy : Policy P) : Policy P :=
  { policy with
    registry := policy.registry.withdraw name
    global := policy.global.withdraw name
    overrides := policy.overrides.mapValues fun target => (target.1, target.2.withdraw name) }

variable {name : String}

namespace CheckerSet

theorem checkers_withdraw (name : String) (s : CheckerSet P)
    : (s.withdraw name).checkers = s.checkers.filter fun c => c.name ≠ name := by
  apply checkers_filterNames

theorem mem_withdraw_iff {s : CheckerSet P} {c : Checker P}
    : c ∈ (s.withdraw name).checkers ↔ c ∈ s.checkers ∧ c.name ≠ name := by
  rw [checkers_withdraw, List.mem_filter, decide_eq_true_eq]

theorem mem_names_withdraw {s : CheckerSet P} {other : String} (h : other ∈ s.names)
    (hne : other ≠ name) : other ∈ (s.withdraw name).names := by
  obtain ⟨c, hc⟩ := mem_names_iff.1 h
  obtain ⟨hmem, rfl⟩ := find?_eq_some_iff.1 hc
  exact name_mem_names (mem_withdraw_iff.2 ⟨hmem, hne⟩)

end CheckerSet

namespace Policy

theorem overrideFor?_withdraw (policy : Policy P) (q : Path)
    : (policy.withdraw name).overrideFor? q
        =
      (policy.overrideFor? q).map (CheckerSet.withdraw name) := by
  unfold overrideFor? withdraw
  rw [SortedMap.find?_mapValues, Option.map_map, Option.map_map]
  rfl

theorem checkersFor_withdraw (policy : Policy P) (directory : Path)
    : (policy.withdraw name).checkersFor directory = (policy.checkersFor directory).withdraw name := by
  unfold checkersFor
  rw [overrideFor?_withdraw]
  cases policy.overrideFor? directory <;> rfl

end Policy

section Stages

variable {compile : PatternCompiler P} {tree : FileTree} {root : Path} {registry : CheckerSet P}

theorem resolveCheckers_withdraw {entries : List CheckerEntry}
    (h : resolveCheckers compile entries = .ok registry)
    : resolveCheckers compile (entries.filter fun entry => entry.name ≠ name)
        = .ok (registry.withdraw name) := by
  obtain ⟨⟨hnodup, hcompiles⟩, hregistry⟩ := resolveCheckers_eq_ok_iff.1 h
  refine resolveCheckers_eq_ok_iff.2 ⟨⟨?_, ?_⟩, ?_⟩
  . exact hnodup.sublist (List.filter_sublist.map _)
  . intro entry hentry
    exact hcompiles entry (List.mem_of_mem_filter hentry)
  . intro c
    simp only [CheckerSet.mem_withdraw_iff, hregistry, List.mem_filter, decide_eq_true_eq]
    constructor
    . rintro ⟨⟨entry, hentry, hc⟩, hne⟩
      exact ⟨entry, ⟨hentry, hc.name ▸ hne⟩, hc⟩
    . rintro ⟨entry, ⟨hentry, hne⟩, hc⟩
      exact ⟨⟨entry, hentry, hc⟩, hc.name ▸ hne⟩

section Selection

variable {s : Selection} {set : CheckerSet P}

theorem Selection.selects_withdraw {other : String} (hne : other ≠ name)
    : (s.withdraw name).Selects other ↔ s.Selects other := by
  obtain ⟨enabled, disabled⟩ := s
  cases enabled with
  | none => rfl
  | some names =>
    change other ∈ names.filter (fun other => other ≠ name) ↔ other ∈ names
    simp [hne]

theorem Selection.IsValid.withdraw (h : s.IsValid registry.names)
    : (s.withdraw name).IsValid (registry.withdraw name).names := by
  obtain ⟨hexclusive, hknown⟩ := h
  constructor
  . exact hexclusive.imp_left fun henabled => Option.map_eq_none_iff.2 henabled
  . intro names hnames other hother
    obtain ⟨names, henabled, rfl⟩ := Option.map_eq_some_iff.1 hnames
    rw [List.mem_filter, decide_eq_true_eq] at hother
    exact CheckerSet.mem_names_withdraw (hknown names henabled other hother.1) hother.2

theorem apply_withdraw (h : s.apply registry = .ok set)
    : (s.withdraw name).apply (registry.withdraw name) = .ok (set.withdraw name) := by
  obtain ⟨hvalid, hyields⟩ := apply_eq_ok_iff.1 h
  refine apply_eq_ok_iff.2 ⟨hvalid.withdraw, ?_⟩
  intro c
  rw [CheckerSet.mem_withdraw_iff, CheckerSet.mem_withdraw_iff, hyields, and_right_comm]
  apply and_congr_right
  rintro ⟨_, hne⟩
  exact (Selection.selects_withdraw hne).symm

end Selection

section Overrides

theorem OverrideEntry.Sets.withdraw {entry : OverrideEntry} {target : Path × CheckerSet P}
    (h : entry.Sets tree root registry target)
    : (entry.withdraw name).Sets tree root (registry.withdraw name)
        (target.1, target.2.withdraw name) := by
  obtain ⟨⟨field, text, htarget, hpath⟩, hselected⟩ := h
  refine ⟨⟨field, text, ?_, hpath⟩, apply_withdraw hselected⟩
  cases htarget with
  | package text hpackage hfile => exact .package text hpackage hfile
  | file text hpackage hfile => exact .file text hpackage hfile

theorem overrideTable_map (f : CheckerSet P → CheckerSet P) (targets : List (Path × CheckerSet P))
    : overrideTable (targets.map fun target => (target.1, f target.2))
        =
      (overrideTable targets).mapValues fun target => (target.1, f target.2) := by
  unfold overrideTable
  induction targets using List.reverseRecOn with
  | nil => rfl
  | append_singleton targets target ih =>
    rw [List.map_append, List.foldl_append, List.foldl_append, ih]
    symm
    apply SortedMap.mapValues_insert

theorem resolveOverrides_withdraw {entries : List OverrideEntry} {table : PathMap (Path × CheckerSet P)}
    (h : resolveOverrides tree root registry entries = .ok table)
    : resolveOverrides tree root (registry.withdraw name) (entries.map (OverrideEntry.withdraw name))
        = .ok (table.mapValues fun target => (target.1, target.2.withdraw name)) := by
  obtain ⟨targets, htargets, rfl⟩ := resolveOverrides_eq_ok_iff.1 h
  refine resolveOverrides_eq_ok_iff.2
    ⟨targets.map fun target => (target.1, target.2.withdraw name), ?_, (overrideTable_map _ _).symm⟩
  rw [List.forall₂_map_left_iff, List.forall₂_map_right_iff]
  exact htargets.imp fun _ _ hsets => hsets.withdraw

end Overrides

theorem Policy.resolve_withdraw {c : Config} {policy : Policy P}
    (h : Policy.resolve compile tree root c = .ok policy)
    : Policy.resolve compile tree root (c.withdraw name) = .ok (policy.withdraw name) := by
  obtain ⟨hroot, hbudget, hregistry, hignored, hglobal, hoverrides⟩ := Policy.resolve_eq_ok_iff.1 h
  rw [mapError_eq_ok_iff] at hglobal
  refine Policy.resolve_eq_ok_iff.2
    ⟨hroot, hbudget, resolveCheckers_withdraw hregistry, hignored, ?_, resolveOverrides_withdraw hoverrides⟩
  exact mapError_eq_ok_iff.2 (apply_withdraw hglobal)

end Stages

end PatternLint
