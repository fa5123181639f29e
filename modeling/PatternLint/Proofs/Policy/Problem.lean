import Mathlib.Data.List.Induction
import PatternLint.Proofs.Checker
import PatternLint.Proofs.FirstProblem
import PatternLint.Proofs.Policy.ProjectPath

/-!
This module contains what can be wrong with a configuration, stage by stage, and that each stage of
resolution reports the first thing that is wrong, with its place and its text.
-/

namespace PatternLint

variable {P : Type}

/-! ### What can be wrong -/

inductive CheckerProblem (compile : PatternCompiler P) (before : List CheckerEntry)
    (entry : CheckerEntry) : PolicyError → Prop where
  | duplicate (h : entry.name ∈ before.map CheckerEntry.name)
      : CheckerProblem compile before entry (.duplicateChecker entry.name)
  | pattern (hnew : entry.name ∉ before.map CheckerEntry.name) (message : String)
      (h : compile entry.pattern = .error message)
      : CheckerProblem compile before entry (.pattern entry.name message)

inductive IgnoredProblem (tree : FileTree) (root : Path) (before : List String) (text : String) :
    PolicyError → Prop where
  | path (fault : PathFault) (h : PathProblem tree root text fault)
      : IgnoredProblem tree root before text (.path (.ignored before.length) text fault)

inductive NameProblem (known : List String) (before : List String) (name : String) :
    SelectionFault → Prop where
  | unknown (h : name ∉ known) : NameProblem known before name (.unknownChecker name)

inductive SelectionProblem (known : List String) (s : Selection) : SelectionFault → Prop where
  | bothLists (henabled : s.enabled.isSome = true) (hdisabled : s.disabled.isSome = true)
      : SelectionProblem known s .bothLists
  | name (names : List String) (henabled : s.enabled = some names) (hdisabled : s.disabled = none)
      (fault : SelectionFault) (h : FirstProblem (NameProblem known) names fault)
      : SelectionProblem known s fault

inductive OverrideEntry.HasTarget (e : OverrideEntry) (index : Nat) : PathField → String → Prop where
  | package (text : String) (hpackage : e.package = some text) (hfile : e.file = none)
      : HasTarget e index (.package index) text
  | file (text : String) (hpackage : e.package = none) (hfile : e.file = some text)
      : HasTarget e index (.file index) text

inductive OverrideEntry.TargetProblem (e : OverrideEntry) (index : Nat) : PolicyError → Prop where
  | both (hpackage : e.package.isSome = true) (hfile : e.file.isSome = true)
      : TargetProblem e index (.bothTargets index)
  | neither (hpackage : e.package = none) (hfile : e.file = none)
      : TargetProblem e index (.noTarget index)

inductive KindProblem (tree : FileTree) (path : Path) : PathField → PathFault → Prop where
  | package (index : Nat) (h : ∀ entries, tree.resolve true path ≠ .ok (.directory entries))
      : KindProblem tree path (.package index) .noDirectory
  | file (index : Nat) (h : ∀ content, tree.resolve true path ≠ .ok (.file content))
      : KindProblem tree path (.file index) .noFile

/--
What is wrong with an override. The conditions are those on the number of targets, the number of
lists, the path, the sort of what stands there, and the names, in this order.
-/
inductive OverrideProblem (tree : FileTree) (root : Path) (known : List String)
    (before : List OverrideEntry) (entry : OverrideEntry) : PolicyError → Prop where
  | target (e : PolicyError) (h : entry.TargetProblem before.length e)
      : OverrideProblem tree root known before entry e
  | bothLists (field : PathField) (text : String) (htarget : entry.HasTarget before.length field text)
      (h : SelectionProblem known entry.selection .bothLists)
      : OverrideProblem tree root known before entry
        (.selection (overrideScope before.length) .bothLists)
  | path (field : PathField) (text : String) (htarget : entry.HasTarget before.length field text)
      (hlists : ¬ SelectionProblem known entry.selection .bothLists) (fault : PathFault)
      (h : PathProblem tree root text fault)
      : OverrideProblem tree root known before entry (.path field text fault)
  | kind (field : PathField) (text : String) (htarget : entry.HasTarget before.length field text)
      (hlists : ¬ SelectionProblem known entry.selection .bothLists) (path : Path)
      (hpath : StandsFor tree root text path) (fault : PathFault)
      (h : KindProblem tree path field fault)
      : OverrideProblem tree root known before entry (.path field text fault)
  | selection (field : PathField) (text : String) (htarget : entry.HasTarget before.length field text)
      (path : Path) (hpath : StandsFor tree root text path)
      (hkind : ∀ fault, ¬ KindProblem tree path field fault) (name : String)
      (h : SelectionProblem known entry.selection (.unknownChecker name))
      : OverrideProblem tree root known before entry
        (.selection (overrideScope before.length) (.unknownChecker name))

namespace Config

def names (c : Config) : List String :=
  c.checkers.map CheckerEntry.name

/-- The first condition that a configuration violates, in the order of the stages of resolution. -/
inductive HasFirst (compile : PatternCompiler P) (tree : FileTree) (root : Path) (c : Config) :
    PolicyError → Prop where
  | choke (h : c.choke = some 0) : HasFirst compile tree root c .zeroChoke
  | checkers (hchoke : c.choke ≠ some 0) (e : PolicyError)
      (h : FirstProblem (CheckerProblem compile) c.checkers e) : HasFirst compile tree root c e
  | ignored (hchoke : c.choke ≠ some 0) (hcheckers : Faultless (CheckerProblem compile) c.checkers)
      (e : PolicyError) (h : FirstProblem (IgnoredProblem tree root) c.ignored e)
      : HasFirst compile tree root c e
  | global (hchoke : c.choke ≠ some 0) (hcheckers : Faultless (CheckerProblem compile) c.checkers)
      (hignored : Faultless (IgnoredProblem tree root) c.ignored) (fault : SelectionFault)
      (h : SelectionProblem c.names c.selection fault)
      : HasFirst compile tree root c (.selection globalScope fault)
  | overrides (hchoke : c.choke ≠ some 0)
      (hcheckers : Faultless (CheckerProblem compile) c.checkers)
      (hignored : Faultless (IgnoredProblem tree root) c.ignored)
      (hglobal : ∀ fault, ¬ SelectionProblem c.names c.selection fault) (e : PolicyError)
      (h : FirstProblem (OverrideProblem tree root c.names) c.overrides e)
      : HasFirst compile tree root c e

end Config

/-! ### The stages -/

section Checkers

variable {compile : PatternCompiler P}

theorem resolveCheckersFrom_stopsAtFirst
    : StopsAtFirst (CheckerProblem compile)
        (fun handled registry => ∀ name,
          registry.contains name = true ↔ name ∈ handled.map CheckerEntry.name)
        (resolveCheckersFrom compile) := by
  constructor
  . exact fun registry => ⟨registry, rfl⟩
  . intro handled registry entry hnames
    by_cases hold : registry.contains entry.name = true
    . have hmem := (hnames entry.name).1 hold
      refine .inl ⟨.duplicateChecker entry.name, ?_, fun other => ⟨?_, ?_⟩⟩
      . intro entries
        rw [resolveCheckersFrom, if_pos hold]
      . rintro (_ | ⟨hnew, _, _⟩)
        . rfl
        . exact absurd hmem hnew
      . rintro rfl
        exact .duplicate hmem
    . have hmem : entry.name ∉ handled.map CheckerEntry.name := fun h => hold ((hnames entry.name).2 h)
      cases hcompile : compile entry.pattern with
      | error message =>
        refine .inl ⟨.pattern entry.name message, ?_, fun other => ⟨?_, ?_⟩⟩
        . intro entries
          rw [resolveCheckersFrom, if_neg hold, hcompile]
        . rintro (h | ⟨_, message', hmessage⟩)
          . exact absurd h hmem
          . rw [hcompile, Except.error.injEq] at hmessage
            rw [hmessage]
        . rintro rfl
          exact .pattern hmem message hcompile
      | ok pattern =>
        refine .inr ⟨?_, registry.add ⟨entry.name, pattern, entry.message⟩, ?_, ?_⟩
        . rintro e (h | ⟨_, message, hmessage⟩)
          . exact hmem h
          . rw [hcompile] at hmessage
            contradiction
        . intro name
          rw [CheckerSet.contains_add_iff, hnames, List.map_append, List.mem_append, or_comm]
          simp [eq_comm]
        . intro entries
          rw [resolveCheckersFrom, if_neg hold, hcompile]

theorem resolveCheckers_eq_error_iff {entries : List CheckerEntry} {e : PolicyError}
    : resolveCheckers compile entries = .error e
        ↔
      FirstProblem (CheckerProblem compile) entries e := by
  apply resolveCheckersFrom_stopsAtFirst.eq_error_iff
  intro name
  rw [CheckerSet.contains_eq_isSome, CheckerSet.find?_empty]
  simp

theorem exists_resolveCheckers_iff {entries : List CheckerEntry}
    : (∃ registry, resolveCheckers compile entries = .ok registry)
        ↔
      Faultless (CheckerProblem compile) entries := by
  exact exists_eq_ok_iff_faultless fun e => resolveCheckers_eq_error_iff

theorem faultless_checkers_iff {entries : List CheckerEntry}
    : Faultless (CheckerProblem compile) entries
        ↔
      (entries.map CheckerEntry.name).Nodup
        ∧ ∀ entry ∈ entries, ∃ pattern, compile entry.pattern = .ok pattern := by
  have hentry (before : List CheckerEntry) (entry : CheckerEntry)
      : (∀ e, ¬ CheckerProblem compile before entry e)
          ↔
        entry.name ∉ before.map CheckerEntry.name
          ∧ ∃ pattern, compile entry.pattern = .ok pattern := by
    constructor
    . intro h
      have hnew : entry.name ∉ before.map CheckerEntry.name := fun hold => h _ (.duplicate hold)
      refine ⟨hnew, ?_⟩
      cases hcompile : compile entry.pattern with
      | error message => exact absurd (.pattern hnew message hcompile) (h _)
      | ok pattern => exact ⟨pattern, rfl⟩
    . rintro ⟨hnew, pattern, hcompile⟩ e (hold | ⟨_, message, hmessage⟩)
      . exact hnew hold
      . rw [hcompile] at hmessage
        contradiction
  induction entries using List.reverseRec with
  | nil => simp [faultless_nil]
  | append_singleton entries entry ih =>
    rw [faultless_concat_iff, List.map_append, List.nodup_append]
    apply (and_congr ih (hentry entries entry)).trans
    simp only [List.mem_append, List.map_cons, List.map_nil, List.mem_singleton]
    constructor
    . rintro ⟨⟨hnodup, hcompiles⟩, hnew, hcompile⟩
      refine ⟨⟨hnodup, by simp, ?_⟩, ?_⟩
      . rintro name hname _ rfl rfl
        exact hnew hname
      . rintro other (hother | rfl)
        . exact hcompiles other hother
        . exact hcompile
    . rintro ⟨⟨hnodup, _, hnew⟩, hcompiles⟩
      refine ⟨⟨hnodup, fun other hother => hcompiles other (.inl hother)⟩, ?_, ?_⟩
      . exact fun hname => hnew _ hname _ rfl rfl
      . exact hcompiles entry (.inr rfl)

structure CheckerEntry.CompilesTo (compile : PatternCompiler P) (entry : CheckerEntry)
    (c : Checker P) : Prop where
  name : c.name = entry.name
  pattern : compile entry.pattern = .ok c.pattern
  message : c.message = entry.message

theorem find?_of_resolveCheckersFrom {registry result : CheckerSet P} {entries : List CheckerEntry}
    (h : resolveCheckersFrom compile registry entries = .ok result) {name : String} {c : Checker P}
    : result.find? name = some c
        ↔
      registry.find? name = some c
        ∨ ∃ entry ∈ entries, entry.name = name ∧ entry.CompilesTo compile c := by
  induction entries generalizing registry with
  | nil =>
    cases h
    simp
  | cons entry entries ih =>
    rw [resolveCheckersFrom] at h
    split at h
    . contradiction
    . next hnew =>
      split at h
      . contradiction
      . next pattern hcompile =>
        rw [CheckerSet.contains_eq_isSome, Option.not_isSome_iff_eq_none] at hnew
        rw [ih h, CheckerSet.find?_add, List.exists_mem_cons_iff, ← or_assoc]
        apply or_congr_left
        dsimp
        constructor
        . intro hfirst
          by_cases hname : entry.name = name
          . subst hname
            rw [hnew, if_pos rfl, Option.none_or, Option.some.injEq] at hfirst
            subst hfirst
            exact .inr ⟨rfl, rfl, hcompile, rfl⟩
          . rw [if_neg hname, Option.or_none] at hfirst
            exact .inl hfirst
        . rintro (hold | ⟨rfl, hc⟩)
          . rw [hold]
            rfl
          . have hpattern := hc.pattern
            rw [hcompile, Except.ok.injEq] at hpattern
            rw [hnew, if_pos rfl, hpattern, ← hc.name, ← hc.message]
            rfl

theorem find?_of_resolveCheckers {registry : CheckerSet P} {entries : List CheckerEntry}
    (h : resolveCheckers compile entries = .ok registry) {name : String} {c : Checker P}
    : registry.find? name = some c
        ↔
      ∃ entry ∈ entries, entry.name = name ∧ entry.CompilesTo compile c := by
  rw [find?_of_resolveCheckersFrom h, CheckerSet.find?_empty]
  simp

theorem contains_of_resolveCheckers {registry : CheckerSet P} {entries : List CheckerEntry}
    (h : resolveCheckers compile entries = .ok registry) (name : String)
    : registry.contains name = true ↔ name ∈ entries.map CheckerEntry.name := by
  rw [CheckerSet.contains_eq_isSome, Option.isSome_iff_exists, List.mem_map]
  simp only [find?_of_resolveCheckers h]
  constructor
  . rintro ⟨c, entry, hentry, hname, _⟩
    exact ⟨entry, hentry, hname⟩
  . rintro ⟨entry, hentry, hname⟩
    have hfaultless := exists_resolveCheckers_iff.1 ⟨registry, h⟩
    obtain ⟨pattern, hpattern⟩ := (faultless_checkers_iff.1 hfaultless).2 entry hentry
    exact ⟨⟨entry.name, pattern, entry.message⟩, entry, hentry, hname, rfl, hpattern, rfl⟩

end Checkers

section Ignored

variable {tree : FileTree} {root : Path}

theorem resolveIgnoredFrom_stopsAtFirst
    : StopsAtFirst (IgnoredProblem tree root) (fun handled state => state.1 = handled.length)
        (fun state : Nat × PathSet => resolveIgnoredFrom tree root state.1 state.2) := by
  constructor
  . exact fun state => ⟨state.2, rfl⟩
  . rintro handled ⟨index, set⟩ text rfl
    dsimp
    rcases projectPath_cases tree root text with ⟨path, hpath, hstands⟩ | ⟨fault, hfault, hproblem⟩
    . refine .inr ⟨?_, (handled.length + 1, set.add path), ?_, ?_⟩
      . rintro e ⟨fault, hfault⟩
        exact hstands.not_pathProblem hfault
      . simp
      . intro texts
        rw [resolveIgnoredFrom, hpath]
    . refine .inl ⟨.path (.ignored handled.length) text fault, ?_, fun other => ⟨?_, ?_⟩⟩
      . intro texts
        rw [resolveIgnoredFrom, hfault]
      . rintro ⟨other, hother⟩
        rw [hother.eq hproblem]
      . rintro rfl
        exact .path fault hproblem

theorem resolveIgnored_eq_error_iff {texts : List String} {e : PolicyError}
    : resolveIgnored tree root texts = .error e
        ↔
      FirstProblem (IgnoredProblem tree root) texts e := by
  have hstart : (0, (.empty : PathSet)).1 = ([] : List String).length := rfl
  exact resolveIgnoredFrom_stopsAtFirst.eq_error_iff hstart texts e

theorem exists_resolveIgnored_iff {texts : List String}
    : (∃ ignored, resolveIgnored tree root texts = .ok ignored)
        ↔
      Faultless (IgnoredProblem tree root) texts := by
  exact exists_eq_ok_iff_faultless fun e => resolveIgnored_eq_error_iff

theorem exists_standsFor_iff {text : String}
    : (∃ path, StandsFor tree root text path) ↔ ∀ fault, ¬ PathProblem tree root text fault := by
  constructor
  . rintro ⟨path, hpath⟩ fault
    exact hpath.not_pathProblem
  . intro h
    rcases projectPath_cases tree root text with ⟨path, _, hstands⟩ | ⟨fault, _, hproblem⟩
    . exact ⟨path, hstands⟩
    . exact absurd hproblem (h fault)

theorem faultless_ignored_iff {texts : List String}
    : Faultless (IgnoredProblem tree root) texts
        ↔
      ∀ text ∈ texts, ∃ path, StandsFor tree root text path := by
  apply faultless_iff_forall_mem
  intro before text
  rw [exists_standsFor_iff]
  constructor
  . intro h fault hfault
    exact h _ (.path fault hfault)
  . rintro h e ⟨fault, hfault⟩
    exact h fault hfault

end Ignored

section Selection

variable {registry : CheckerSet P} {known : List String}

theorem selectNamesFrom_stopsAtFirst (hknown : ∀ name, registry.contains name = true ↔ name ∈ known)
    : StopsAtFirst (NameProblem known) (fun _ _ => True) (selectNamesFrom registry) := by
  constructor
  . exact fun set => ⟨set, rfl⟩
  . intro handled set name _
    have hname := hknown name
    rw [CheckerSet.contains_eq_isSome] at hname
    cases hfound : registry.find? name with
    | none =>
      rw [hfound] at hname
      refine .inl ⟨.unknownChecker name, ?_, fun other => ⟨?_, ?_⟩⟩
      . intro names
        rw [selectNamesFrom, hfound]
      . rintro ⟨_⟩
        rfl
      . rintro rfl
        exact .unknown fun hmem => absurd (hname.2 hmem) (by simp)
    | some checker =>
      rw [hfound] at hname
      refine .inr ⟨?_, set.add checker, trivial, ?_⟩
      . rintro e ⟨hunknown⟩
        exact hunknown (hname.1 rfl)
      . intro names
        rw [selectNamesFrom, hfound]

theorem apply_eq_error_iff (hknown : ∀ name, registry.contains name = true ↔ name ∈ known)
    {s : Selection} {fault : SelectionFault}
    : s.apply registry = .error fault ↔ SelectionProblem known s fault := by
  unfold Selection.apply
  split
  . next _ _ henabled hdisabled =>
    constructor
    . intro h
      cases h
      exact .bothLists (by rw [henabled]; rfl) (by rw [hdisabled]; rfl)
    . rintro (_ | ⟨_, _, hnone, _⟩)
      . rfl
      . rw [hdisabled] at hnone
        contradiction
  . next names henabled hdisabled =>
    rw [(selectNamesFrom_stopsAtFirst hknown).eq_error_iff trivial]
    constructor
    . intro h
      exact .name names henabled hdisabled fault h
    . rintro (⟨_, hsome⟩ | ⟨names', hnames, _, _, h⟩)
      . rw [hdisabled] at hsome
        contradiction
      . rw [henabled, Option.some.injEq] at hnames
        exact hnames ▸ h
  . next henabled _ =>
    constructor
    . intro h
      contradiction
    . rintro (⟨hsome, _⟩ | ⟨_, hsome, _, _, _⟩) <;> rw [henabled] at hsome <;> contradiction
  . next henabled _ =>
    constructor
    . intro h
      contradiction
    . rintro (⟨hsome, _⟩ | ⟨_, hsome, _, _, _⟩) <;> rw [henabled] at hsome <;> contradiction

theorem exists_apply_iff (hknown : ∀ name, registry.contains name = true ↔ name ∈ known)
    {s : Selection}
    : (∃ set, s.apply registry = .ok set) ↔ ∀ fault, ¬ SelectionProblem known s fault := by
  simp only [← apply_eq_error_iff hknown]
  cases s.apply registry <;> simp

end Selection

section Overrides

variable {tree : FileTree} {root : Path} {registry : CheckerSet P} {known : List String}
  {entry : OverrideEntry} {index : Nat} {field : PathField} {text : String} {path : Path}

theorem target_eq_ok_iff : entry.target index = .ok (field, text) ↔ entry.HasTarget index field text := by
  unfold OverrideEntry.target
  constructor
  . intro h
    cases hpackage : entry.package <;> cases hfile : entry.file <;> rw [hpackage, hfile] at h
      <;> cases h
    . exact .file _ hpackage hfile
    . exact .package _ hpackage hfile
  . rintro (⟨_, hpackage, hfile⟩ | ⟨_, hpackage, hfile⟩) <;> rw [hpackage, hfile]

theorem target_eq_error_iff {e : PolicyError}
    : entry.target index = .error e ↔ entry.TargetProblem index e := by
  unfold OverrideEntry.target
  constructor
  . intro h
    cases hpackage : entry.package <;> cases hfile : entry.file <;> rw [hpackage, hfile] at h
      <;> cases h
    . exact .neither hpackage hfile
    . exact .both (by rw [hpackage]; rfl) (by rw [hfile]; rfl)
  . rintro (⟨hpackage, hfile⟩ | ⟨hpackage, hfile⟩)
    . obtain ⟨package, hpackage⟩ := Option.isSome_iff_exists.1 hpackage
      obtain ⟨file, hfile⟩ := Option.isSome_iff_exists.1 hfile
      rw [hpackage, hfile]
    . rw [hpackage, hfile]

theorem isDirectory_iff
    : tree.isDirectory path = true ↔ ∃ entries, tree.resolve true path = .ok (.directory entries) := by
  unfold FileTree.isDirectory
  split
  . next entries h => simp [h]
  . next h => simpa using h

theorem isFile_iff
    : tree.isFile path = true ↔ ∃ content, tree.resolve true path = .ok (.file content) := by
  unfold FileTree.isFile
  split
  . next content h => simp [h]
  . next h => simpa using h

theorem targetFault?_eq_some_iff {fault : PathFault}
    : targetFault? tree path field = some fault ↔ KindProblem tree path field fault := by
  unfold targetFault?
  cases field with
  | ignored index =>
    constructor
    . intro h
      contradiction
    . rintro ⟨⟩
  | package index =>
    dsimp
    split
    . next h =>
      obtain ⟨entries, hentries⟩ := isDirectory_iff.1 h
      constructor
      . intro h
        contradiction
      . rintro ⟨_, hnone⟩
        exact absurd hentries (hnone entries)
    . next h =>
      rw [isDirectory_iff, not_exists] at h
      constructor
      . intro h'
        cases h'
        exact .package index h
      . rintro ⟨_, _⟩
        rfl
  | file index =>
    dsimp
    split
    . next h =>
      obtain ⟨content, hcontent⟩ := isFile_iff.1 h
      constructor
      . intro h
        contradiction
      . rintro (_ | ⟨_, hnone⟩)
        exact absurd hcontent (hnone content)
    . next h =>
      rw [isFile_iff, not_exists] at h
      constructor
      . intro h'
        cases h'
        exact .file index h
      . rintro (_ | ⟨_, _⟩)
        rfl

theorem selectionProblem_bothLists_iff (known : List String) {s : Selection}
    : SelectionProblem known s .bothLists
        ↔
      (s.enabled.isSome && s.disabled.isSome) = true := by
  rw [Bool.and_eq_true]
  constructor
  . rintro (⟨henabled, hdisabled⟩ | ⟨_, _, _, _, _, _, _, _, hname, _⟩)
    . exact ⟨henabled, hdisabled⟩
    . contradiction
  . rintro ⟨henabled, hdisabled⟩
    exact .bothLists henabled hdisabled

theorem resolve_eq_of_hasTarget (h : entry.HasTarget index field text)
    : entry.resolve tree root registry index
        =
      if entry.selection.enabled.isSome && entry.selection.disabled.isSome then
        .error (.selection (overrideScope index) .bothLists)
      else
        match projectPath tree root text with
        | .error fault => .error (.path field text fault)
        | .ok path =>
          match targetFault? tree path field with
          | some fault => .error (.path field text fault)
          | none =>
            match entry.selection.apply registry with
            | .error fault => .error (.selection (overrideScope index) fault)
            | .ok set => .ok (path, set) := by
  unfold OverrideEntry.resolve
  rw [target_eq_ok_iff.2 h]
  dsimp [bind, Except.bind]
  split
  . rfl
  . cases projectPath tree root text with
    | error fault => rfl
    | ok path =>
      dsimp [Except.mapError]
      cases targetFault? tree path field with
      | some fault => rfl
      | none => cases entry.selection.apply registry <;> rfl

theorem OverrideEntry.HasTarget.unique {field' : PathField} {text' : String}
    (h : entry.HasTarget index field text) (h' : entry.HasTarget index field' text')
    : field = field' ∧ text = text' := by
  rw [← target_eq_ok_iff] at h h'
  rw [h, Except.ok.injEq, Prod.mk.injEq] at h'
  exact h'

theorem OverrideProblem.of_resolve {before : List OverrideEntry} {e : PolicyError}
    (hknown : ∀ name, registry.contains name = true ↔ name ∈ known)
    (htarget : entry.HasTarget before.length field text)
    (h : entry.resolve tree root registry before.length = .error e)
    : OverrideProblem tree root known before entry e := by
  rw [resolve_eq_of_hasTarget htarget] at h
  split at h
  . next hlists =>
    cases h
    exact .bothLists field text htarget ((selectionProblem_bothLists_iff known).2 hlists)
  . next hlists =>
    rw [← selectionProblem_bothLists_iff known] at hlists
    split at h
    . next fault hfault =>
      cases h
      exact .path field text htarget hlists fault (projectPath_eq_error_iff.1 hfault)
    . next path hpath =>
      have hstands := projectPath_eq_ok_iff.1 hpath
      split at h
      . next fault hfault =>
        cases h
        exact .kind field text htarget hlists path hstands fault (targetFault?_eq_some_iff.1 hfault)
      . next hkind =>
        have hkind (fault : PathFault) : ¬ KindProblem tree path field fault := by
          rw [← targetFault?_eq_some_iff, hkind]
          simp
        split at h
        . next fault hfault =>
          cases h
          have hproblem := (apply_eq_error_iff hknown).1 hfault
          cases fault with
          | bothLists => exact absurd hproblem hlists
          | unknownChecker name =>
            exact .selection field text htarget path hstands hkind name hproblem
        . contradiction

theorem OverrideProblem.resolve_eq {before : List OverrideEntry} {e : PolicyError}
    (hknown : ∀ name, registry.contains name = true ↔ name ∈ known)
    (htarget : entry.HasTarget before.length field text)
    (h : OverrideProblem tree root known before entry e)
    : entry.resolve tree root registry before.length = .error e := by
  rw [resolve_eq_of_hasTarget htarget]
  cases h with
  | target _ h =>
    rw [← target_eq_error_iff, target_eq_ok_iff.2 htarget] at h
    contradiction
  | bothLists field' text' htarget' h =>
    rw [if_pos ((selectionProblem_bothLists_iff known).1 h)]
  | path field' text' htarget' hlists fault h =>
    obtain ⟨rfl, rfl⟩ := htarget.unique htarget'
    rw [selectionProblem_bothLists_iff] at hlists
    rw [if_neg hlists, projectPath_eq_error_iff.2 h]
  | kind field' text' htarget' hlists path hstands fault h =>
    obtain ⟨rfl, rfl⟩ := htarget.unique htarget'
    rw [selectionProblem_bothLists_iff] at hlists
    rw [if_neg hlists, projectPath_eq_ok_iff.2 hstands]
    dsimp
    rw [targetFault?_eq_some_iff.2 h]
  | selection field' text' htarget' path hstands hkind name h =>
    obtain ⟨rfl, rfl⟩ := htarget.unique htarget'
    have happly := (apply_eq_error_iff hknown).2 h
    have hlists : ¬ SelectionProblem known entry.selection .bothLists := by
      intro hboth
      rw [(apply_eq_error_iff hknown).2 hboth] at happly
      cases happly
    have hnone : targetFault? tree path field = none := by
      rw [Option.eq_none_iff_forall_ne_some]
      intro fault hfault
      exact hkind fault (targetFault?_eq_some_iff.1 hfault)
    rw [selectionProblem_bothLists_iff] at hlists
    rw [if_neg hlists, projectPath_eq_ok_iff.2 hstands]
    dsimp
    rw [hnone, happly]

theorem resolve_eq_error_iff (hknown : ∀ name, registry.contains name = true ↔ name ∈ known)
    {before : List OverrideEntry} {e : PolicyError}
    : entry.resolve tree root registry before.length = .error e
        ↔
      OverrideProblem tree root known before entry e := by
  cases htarget : entry.target before.length with
  | ok target =>
    have htarget := target_eq_ok_iff.1 htarget
    exact ⟨.of_resolve hknown htarget, fun h => h.resolve_eq hknown htarget⟩
  | error e' =>
    have hresolve : entry.resolve tree root registry before.length = .error e' := by
      unfold OverrideEntry.resolve
      rw [htarget]
      rfl
    have hproblem : e' = e ↔ entry.TargetProblem before.length e := by
      rw [← target_eq_error_iff, htarget, Except.error.injEq]
    rw [hresolve, Except.error.injEq, hproblem]
    constructor
    . exact .target e
    . intro h
      -- what comes after the number of targets is only asked of an override with one target
      have hnone {field : PathField} {text : String} (h : entry.HasTarget before.length field text)
          : False := by
        rw [← target_eq_ok_iff, htarget] at h
        contradiction
      cases h with
      | target _ h => exact h
      | bothLists _ _ h | path _ _ h | kind _ _ h | selection _ _ h => exact (hnone h).elim

theorem resolveOverridesFrom_stopsAtFirst
    (hknown : ∀ name, registry.contains name = true ↔ name ∈ known)
    : StopsAtFirst (OverrideProblem tree root known) (fun handled state => state.1 = handled.length)
        (fun state : Nat × PathMap (Path × CheckerSet P) =>
          resolveOverridesFrom tree root registry state.1 state.2) := by
  constructor
  . exact fun state => ⟨state.2, rfl⟩
  . rintro handled ⟨index, table⟩ entry rfl
    dsimp
    cases hresolve : entry.resolve tree root registry handled.length with
    | error e =>
      refine .inl ⟨e, ?_, fun other => ?_⟩
      . intro entries
        rw [resolveOverridesFrom, hresolve]
      . rw [← resolve_eq_error_iff hknown, hresolve, Except.error.injEq, eq_comm]
    | ok target =>
      refine .inr ⟨?_, (handled.length + 1, table.insert target.1.components target), ?_, ?_⟩
      . intro e
        rw [← resolve_eq_error_iff hknown, hresolve]
        simp
      . simp
      . intro entries
        rw [resolveOverridesFrom, hresolve]

theorem resolveOverrides_eq_error_iff
    (hknown : ∀ name, registry.contains name = true ↔ name ∈ known) {entries : List OverrideEntry}
    {e : PolicyError}
    : resolveOverrides tree root registry entries = .error e
        ↔
      FirstProblem (OverrideProblem tree root known) entries e := by
  have hstart : (0, (.empty : PathMap (Path × CheckerSet P))).1 = ([] : List OverrideEntry).length :=
    rfl
  exact (resolveOverridesFrom_stopsAtFirst hknown).eq_error_iff hstart entries e

end Overrides

end PatternLint
