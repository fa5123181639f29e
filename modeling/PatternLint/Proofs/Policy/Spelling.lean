import PatternLint.Proofs.Policy.Result
import PatternLint.Schedule.Traversal

/-!
This module contains how texts in a configuration spell paths of the project. Empty pieces and dots
do not count, wherever they stand, so every spelling of a path that the walk of a project comes to is
about exactly that path.
-/

namespace PatternLint

variable {P : Type}

namespace Path

open Text

def spelled (text : String) : List RawText :=
  ((splitAt '/' text.toList).filter fun piece => piece ≠ [] ∧ piece ≠ ['.']).map fun piece =>
    String.ofList piece

structure LeadsInside (text : String) : Prop where
  not_blank : ∃ c ∈ text.toList, isBlank c = false
  relative : text.toList.head? ≠ some '/'
  no_dots : (".." : RawText) ∉ spelled text

def Spells (text : String) (names : List RawText) : Prop :=
  LeadsInside text ∧ spelled text = names

def Component.ofName (name : RawText) : Component :=
  if name = ".." then .parent else .normal name

theorem componentOfPart?_eq (t : RawText)
    : componentOfPart? t.toList = if t ≠ "" ∧ t ≠ "." then some (.ofName t) else none := by
  have hnot {other : RawText} : t.toList = other.toList ↔ t = other := RawText.toList_inj
  unfold Component.ofName
  by_cases hempty : t = ""
  . rw [hempty]
    rfl
  . by_cases hdot : t = "."
    . rw [hdot]
      rfl
    . rw [if_pos ⟨hempty, hdot⟩]
      split
      . next hdots =>
        rw [hdots]
        rfl
      . next hdots => exact componentOfPart?_of_ne hempty hdot hdots

theorem componentOfPart?_bytes (piece : List Char)
    : componentOfPart? (bytes (.ofList piece))
        =
      if piece ≠ [] ∧ piece ≠ ['.'] then some (.ofName (String.ofList piece)) else none := by
  have hpiece (other : String)
      : (String.ofList piece : RawText) = other ↔ piece = other.toList := by
    rw [RawText.ofString_inj, ← String.toList_inj, String.toList_ofList]
  refine (componentOfPart?_eq (String.ofList piece)).trans ?_
  simp only [ne_eq, hpiece]
  rfl

theorem filterMap_componentOfPart? (pieces : List (List Char))
    : (pieces.map fun piece => bytes (.ofList piece)).filterMap componentOfPart?
        =
      ((pieces.filter fun piece => piece ≠ [] ∧ piece ≠ ['.']).map fun piece =>
        (String.ofList piece : RawText)).map Component.ofName := by
  induction pieces with
  | nil => rfl
  | cons piece pieces ih =>
    rw [List.map_cons, List.filterMap_cons, componentOfPart?_bytes, ih]
    by_cases hcounts : piece ≠ [] ∧ piece ≠ ['.']
    . rw [if_pos hcounts, List.filter_cons_of_pos (by simpa using hcounts)]
      rfl
    . rw [if_neg hcounts, List.filter_cons_of_neg (by simpa using hcounts)]

theorem components_eq_spelled (text : String)
    : components ⟨text⟩ = (split ⟨text⟩).1.components ++ (spelled text).map Component.ofName := by
  have hpieces : splitAt slash (RawText.ofString text).toList = _ :=
    splitAt_bytes (c := '/') (by decide) (by decide) text
  unfold spelled
  rw [← filterMap_componentOfPart?, ← hpieces, components_eq, split_eq]
  generalize splitAt slash _ = pieces
  unfold splitPieces componentsOfParts
  -- a first piece that only tells the start of the path has no component
  split <;> rfl

theorem parent_mem_iff {text : String} : .parent ∈ components ⟨text⟩ ↔ (".." : RawText) ∈ spelled text := by
  rw [components_eq_spelled, List.mem_append, List.mem_map]
  constructor
  . rintro (hanchor | ⟨name, hname, hparent⟩)
    . cases hsplit : (split ⟨text⟩).1 <;> simp [hsplit, Anchor.components] at hanchor
    . unfold Component.ofName at hparent
      split at hparent
      . next hdots => exact hdots ▸ hname
      . contradiction
  . intro h
    exact .inr ⟨"..", h, rfl⟩

theorem LeadsInside.names_eq {text : String} (h : LeadsInside text) : names ⟨text⟩ = spelled text := by
  have hdots := h.no_dots
  have hanchor (anchor : Anchor) : anchor.components.filterMap Component.name? = [] := by
    cases anchor <;> rfl
  unfold names
  rw [components_eq_spelled, List.filterMap_append, hanchor, List.nil_append, List.filterMap_map]
  clear h
  generalize spelled text = spelled at hdots
  induction spelled with
  | nil => rfl
  | cons name others ih =>
    rw [List.mem_cons, not_or] at hdots
    have hname : (Component.name? ∘ Component.ofName) name = some name := by
      simp [Component.ofName, Component.name?, Ne.symm hdots.1]
    rw [List.filterMap_cons_some hname, ih hdots.2]

theorem LeadsInside.isName {text : String} (h : LeadsInside text)
    : ∀ name ∈ spelled text, IsName name := by
  rw [← h.names_eq]
  exact fun name hname => isName_of_mem_names hname

theorem LeadsInside.components_extend {text : String} (h : LeadsInside text) (root : Path)
    : (root.extend (spelled text)).components = root.components ++ (spelled text).map .normal :=
  Path.components_extend h.isName

end Path

section Reading

variable {tree : FileTree} {root : Path} {text : String}

theorem standsFor_iff {path : Path}
    : StandsFor tree root text path
        ↔
      Path.LeadsInside text ∧ path = root.extend (Path.spelled text) ∧ tree.has path = true := by
  rw [has_iff]
  constructor
  . rintro ⟨hblank, hrelative, hinside, rfl, hfound⟩
    rw [Path.parent_mem_iff] at hinside
    have hleads : Path.LeadsInside text := ⟨hblank, hrelative, hinside⟩
    rw [hleads.names_eq] at hfound ⊢
    exact ⟨hleads, rfl, hfound⟩
  . rintro ⟨hleads, hpath, hfound⟩
    rw [← hleads.names_eq] at hpath
    exact ⟨hleads.not_blank, hleads.relative, Path.parent_mem_iff.not.2 hleads.no_dots, hpath, hfound⟩

theorem PathFault.text_inj {fault other : PathFault} (h : fault.text = other.text) : fault = other := by
  cases fault <;> cases other <;> first | rfl | (unfold PathFault.text at h; contradiction)

theorem refused_iff (tree : FileTree) (root : Path) (text : String) (fault : PathFault)
    : (projectPath tree root text).mapError PathFault.text = .error fault.text
        ↔
      PathProblem tree root text fault := by
  rw [mapError_eq_error_iff, ← projectPath_eq_error_iff]
  constructor
  . rintro ⟨other, hother, htext⟩
    rw [hother, PathFault.text_inj htext]
  . intro h
    exact ⟨fault, h, rfl⟩

/-- What a text in a configuration has to be read as, and in which words it has to be refused. -/
structure IsPathReading (tree : FileTree) (root : Path) (text : String)
    (result : Except PathFault Path) : Prop where
  blank : result.mapError PathFault.text = .error "must not be empty"
    ↔ ∀ c ∈ text.toList, Text.isBlank c = true
  absolute : result.mapError PathFault.text = .error "must be relative to the project root"
    ↔ (∃ c ∈ text.toList, Text.isBlank c = false) ∧ text.toList.head? = some '/'
  escaping : result.mapError PathFault.text = .error "must stay inside the project root"
    ↔ (∃ c ∈ text.toList, Text.isBlank c = false) ∧ text.toList.head? ≠ some '/'
      ∧ (".." : RawText) ∈ Path.spelled text
  missing : result.mapError PathFault.text = .error "does not exist"
    ↔ Path.LeadsInside text ∧ tree.has (root.extend (Path.spelled text)) = false
  accepted : ∀ path, result = .ok path
    ↔ Path.LeadsInside text ∧ path = root.extend (Path.spelled text) ∧ tree.has path = true
  contained : ∀ path, result = .ok path →
    path.components = root.components ++ (Path.names ⟨text⟩).map .normal
      ∧ Path.names ⟨text⟩ = Path.spelled text
      ∧ .parent ∉ path.components.drop root.components.length

theorem pathProblem_missing_iff
    : PathProblem tree root text .missing
        ↔
      Path.LeadsInside text ∧ tree.has (root.extend (Path.spelled text)) = false := by
  rw [← Bool.not_eq_true, has_iff, not_exists]
  constructor
  . rintro (_ | _ | _ | ⟨hblank, hrelative, hinside, hmissing⟩)
    have hleads : Path.LeadsInside text := ⟨hblank, hrelative, Path.parent_mem_iff.not.1 hinside⟩
    exact ⟨hleads, hleads.names_eq ▸ hmissing⟩
  . rintro ⟨hleads, hmissing⟩
    have hinside := Path.parent_mem_iff.not.2 hleads.no_dots
    exact .missing hleads.not_blank hleads.relative hinside (hleads.names_eq ▸ hmissing)

theorem StandsFor.contained {path : Path} (h : StandsFor tree root text path)
    : path.components = root.components ++ (Path.names ⟨text⟩).map .normal
        ∧ Path.names ⟨text⟩ = Path.spelled text
        ∧ .parent ∉ path.components.drop root.components.length := by
  obtain ⟨hleads, rfl, _⟩ := standsFor_iff.1 h
  rw [hleads.names_eq, hleads.components_extend, List.drop_left]
  refine ⟨rfl, rfl, ?_⟩
  intro hparent
  obtain ⟨name, _, hname⟩ := List.mem_map.1 hparent
  contradiction

theorem isPathReading (tree : FileTree) (root : Path) (text : String)
    : IsPathReading tree root text (projectPath tree root text) := by
  constructor
  . refine (refused_iff tree root text .blank).trans ⟨?_, ?_⟩
    . rintro ⟨h⟩
      exact h
    . exact .blank
  . refine (refused_iff tree root text .absolute).trans ⟨?_, ?_⟩
    . rintro (_ | ⟨hblank, h⟩)
      exact ⟨hblank, h⟩
    . rintro ⟨hblank, h⟩
      exact .absolute hblank h
  . refine (refused_iff tree root text .escaping).trans ⟨?_, ?_⟩
    . rintro (_ | _ | ⟨hblank, hrelative, h⟩)
      exact ⟨hblank, hrelative, Path.parent_mem_iff.1 h⟩
    . rintro ⟨hblank, hrelative, h⟩
      exact .escaping hblank hrelative (Path.parent_mem_iff.2 h)
  . exact (refused_iff tree root text .missing).trans pathProblem_missing_iff
  . intro path
    rw [projectPath_eq_ok_iff, standsFor_iff]
  . intro path h
    exact (projectPath_eq_ok_iff.1 h).contained

theorem StandsFor.isSame_iff {text' : String} {path path' : Path} (h : StandsFor tree root text path)
    (h' : StandsFor tree root text' path')
    : path.isSame path' = true ↔ Path.names ⟨text⟩ = Path.names ⟨text'⟩ := by
  unfold Path.isSame
  rw [decide_eq_true_eq, h.contained.1, h'.contained.1, List.append_cancel_left_eq]
  apply List.map_inj_right
  intro name other heq
  injection heq

theorem Path.Spells.projectPath_eq {names : List RawText} (h : Path.Spells text names)
    (hfound : tree.has (root.extend names) = true)
    : projectPath tree root text = .ok (root.extend names) := by
  obtain ⟨hleads, rfl⟩ := h
  rw [projectPath_eq_ok_iff, standsFor_iff]
  exact ⟨hleads, rfl, hfound⟩

theorem StandsFor.components_eq_iff {path : Path} {names : List RawText}
    (h : StandsFor tree root text path) (hnames : ∀ name ∈ names, Path.IsName name)
    : path.components = (root.extend names).components ↔ Path.Spells text names := by
  obtain ⟨hleads, rfl, _⟩ := standsFor_iff.1 h
  constructor
  . intro hsame
    exact ⟨hleads, Path.extend_components_inj hleads.isName hnames hsame⟩
  . rintro ⟨_, rfl⟩
    rfl

end Reading

/-! ### What texts say of a path -/

def OverrideEntry.Spells (e : OverrideEntry) (names : List RawText) : Prop :=
  ∃ text, (e.package = some text ∨ e.file = some text) ∧ Path.Spells text names

/-- A policy does with a path what the texts do that spell its names, and those alone. -/
structure Policy.Follows (policy : Policy P) (c : Config) (path : Path) (names : List RawText) : Prop where
  ignored : policy.isIgnored path = true ↔ ∃ text ∈ c.ignored, Path.Spells text names
  skipped : ∀ {U : Type} (provider : Provider U) (isDirectory : Bool),
    skipReason? policy provider ⟨path, isDirectory⟩ = some .ignored
      ↔ ∃ text ∈ c.ignored, Path.Spells text names
  notOverridden : policy.overrideFor? path = none ↔ ∀ entry ∈ c.overrides, ¬ entry.Spells names
  overridden : ∀ before entry after, c.overrides = before ++ entry :: after →
    entry.Spells names → (∀ later ∈ after, ¬ later.Spells names) →
      ∃ set, policy.overrideFor? path = some set ∧ entry.selection.Yields policy.registry set

theorem skipReason?_eq_ignored_iff {U : Type} {policy : Policy P} {provider : Provider U} {e : DirEntry}
    : skipReason? policy provider e = some .ignored ↔ policy.isIgnored e.path = true := by
  unfold skipReason?
  split
  . next h => simp [h]
  . next h =>
    rw [iff_false_right h]
    repeat' split
    all_goals simp

section Follows

variable {compile : PatternCompiler P} {tree : FileTree} {root : Path} {c : Config} {policy : Policy P}
  {names : List RawText}

theorem isIgnored_iff (h : Policy.resolve compile tree root c = .ok policy)
    (hnames : ∀ name ∈ names, Path.IsName name)
    : policy.isIgnored (root.extend names) = true ↔ ∃ text ∈ c.ignored, Path.Spells text names := by
  obtain ⟨_, _, _, hignored, _⟩ := Policy.resolve_eq_ok_iff.1 h
  obtain ⟨haccepted, hfind⟩ := resolveIgnored_eq_ok_iff.1 hignored
  unfold Policy.isIgnored PathSet.has SortedMap.contains
  rw [Option.isSome_iff_exists]
  simp only [hfind]
  constructor
  . rintro ⟨path, hsame, text, htext, hpath⟩
    exact ⟨text, htext, (hpath.components_eq_iff hnames).1 hsame⟩
  . rintro ⟨text, htext, hspells⟩
    obtain ⟨path, hpath⟩ := haccepted text htext
    exact ⟨path, (hpath.components_eq_iff hnames).2 hspells, text, htext, hpath⟩

theorem OverrideEntry.Sets.targets_iff {registry : CheckerSet P} {entry : OverrideEntry}
    {target : Path × CheckerSet P} (h : entry.Sets tree root registry target)
    (hnames : ∀ name ∈ names, Path.IsName name)
    : entry.Targets tree root (root.extend names) ↔ entry.Spells names := by
  obtain ⟨field, text, htarget, hpath, _⟩ := h.aimed
  unfold OverrideEntry.Targets OverrideEntry.Spells Path.isSame
  simp only [htarget.text_iff, decide_eq_true_eq]
  constructor
  . rintro ⟨_, path, rfl, hpath', hsame⟩
    exact ⟨text, rfl, (hpath'.components_eq_iff hnames).1 hsame⟩
  . rintro ⟨_, rfl, hspells⟩
    exact ⟨text, target.1, rfl, hpath, (hpath.components_eq_iff hnames).2 hspells⟩

theorem exists_sets_of_mem {registry : CheckerSet P} {entries : List OverrideEntry}
    {targets : List (Path × CheckerSet P)}
    (h : List.Forall₂ (OverrideEntry.Sets tree root registry) entries targets) {entry : OverrideEntry}
    (hentry : entry ∈ entries) : ∃ target, entry.Sets tree root registry target := by
  induction h with
  | nil => contradiction
  | cons hfirst _ ih =>
    rcases List.mem_cons.1 hentry with rfl | hentry
    . exact ⟨_, hfirst⟩
    . exact ih hentry

theorem targets_iff_spells (h : Policy.resolve compile tree root c = .ok policy)
    (hnames : ∀ name ∈ names, Path.IsName name) {entry : OverrideEntry} (hentry : entry ∈ c.overrides)
    : entry.Targets tree root (root.extend names) ↔ entry.Spells names := by
  obtain ⟨_, _, _, _, _, hoverrides⟩ := Policy.resolve_eq_ok_iff.1 h
  obtain ⟨targets, htargets, _⟩ := resolveOverrides_eq_ok_iff.1 hoverrides
  obtain ⟨target, hsets⟩ := exists_sets_of_mem htargets hentry
  exact hsets.targets_iff hnames

theorem Policy.follows_of_resolve (h : Policy.resolve compile tree root c = .ok policy)
    (hnames : ∀ name ∈ names, Path.IsName name) : policy.Follows c (root.extend names) names := by
  have htargets {entry : OverrideEntry} (hentry : entry ∈ c.overrides) :=
    targets_iff_spells h hnames hentry
  refine ⟨isIgnored_iff h hnames, ?_, ?_, ?_⟩
  . intro U provider isDirectory
    rw [skipReason?_eq_ignored_iff]
    exact isIgnored_iff h hnames
  . rw [overrideFor?_eq_none_iff h]
    exact forall₂_congr fun entry hentry => not_congr (htargets hentry)
  . intro before entry after hentries hspells hlast
    have hmem {e : OverrideEntry} (he : e ∈ entry :: after) : e ∈ c.overrides := by
      rw [hentries]
      exact List.mem_append_right _ he
    apply overrideFor?_of_last h hentries ((htargets (hmem List.mem_cons_self)).2 hspells)
    intro later hlater hlaterTargets
    exact hlast later hlater ((htargets (hmem (List.mem_cons_of_mem _ hlater))).1 hlaterTargets)

end Follows

/-! ### Where the walk of a project comes to -/

namespace Listing

mutual

def within : Listing → List DirEntry
  | .failed _ => []
  | .entries children => withinEntries children

def withinEntries : List ListedEntry → List DirEntry
  | [] => []
  | entry :: rest => withinEntry entry ++ withinEntries rest

def withinEntry : ListedEntry → List DirEntry
  | .file path => [⟨path, false⟩]
  | .directory path listing => ⟨path, true⟩ :: within listing

end

mutual

theorem exists_extend_of_mem_ofTree {path : Path} {t : FileTree} {e : DirEntry} (ht : t.IsProper)
    (he : e ∈ withinEntry (.ofTree path t))
    : ∃ names, e.path = path.extend names ∧ ∀ name ∈ names, Path.IsName name := by
  cases t with
  | file content =>
    cases List.mem_singleton.1 he
    exact ⟨[], rfl, by simp⟩
  | link target =>
    cases List.mem_singleton.1 he
    exact ⟨[], rfl, by simp⟩
  | directory entries =>
    rcases List.mem_cons.1 he with rfl | he
    . exact ⟨[], rfl, by simp⟩
    . exact exists_extend_of_mem_ofEntries ht.2 he

theorem exists_extend_of_mem_ofEntries {directory : Path} {entries : List (RawText × FileTree)}
    {e : DirEntry} (h : FileTree.AreProper entries)
    (he : e ∈ withinEntries (Listing.ofEntries directory entries))
    : ∃ names, e.path = directory.extend names ∧ ∀ name ∈ names, Path.IsName name := by
  match entries with
  | [] => contradiction
  | (name, t) :: entries =>
    rw [Listing.ofEntries, withinEntries, List.mem_append] at he
    rcases he with he | he
    . obtain ⟨names, hpath, hnames⟩ := exists_extend_of_mem_ofTree h.2.1 he
      exact ⟨name :: names, hpath, List.forall_mem_cons.2 ⟨h.1, hnames⟩⟩
    . exact exists_extend_of_mem_ofEntries h.2.2 he

end

theorem exists_extend_of_mem_within {tree : FileTree} {root : Path} {e : DirEntry}
    (htree : tree.IsProper) (he : e ∈ (Listing.ofPath tree root).within)
    : ∃ names, e.path = root.extend names ∧ ∀ name ∈ names, Path.IsName name := by
  unfold Listing.ofPath at he
  split at he
  . contradiction
  . next entries hstart =>
    exact exists_extend_of_mem_ofEntries (WalkStart.isProper_find htree hstart).2 he
  . contradiction

end Listing

/--
Paths in a configuration are read piece by piece, stay below the root, and are about those entries of
the walk whose names they spell.
-/
theorem Policy.resolve_follows_spelling (compile : PatternCompiler P) (tree : FileTree) (root : Path)
    : (∀ text, IsPathReading tree root text (projectPath tree root text))
        ∧ (∀ text text' path path', projectPath tree root text = .ok path →
            projectPath tree root text' = .ok path' →
              (path.isSame path' = true ↔ Path.names ⟨text⟩ = Path.names ⟨text'⟩))
        ∧ ∀ (system : FileSystem) c policy, Policy.resolve compile system.tree root c = .ok policy →
            ∀ path, path = root ∨ (∃ e ∈ (Listing.ofPath system.tree root).within, e.path = path) →
              ∃ names, path = root.extend names ∧ (∀ name ∈ names, Path.IsName name)
                ∧ (∀ text, Path.Spells text names → system.tree.has path = true →
                  projectPath system.tree root text = .ok path)
                ∧ policy.Follows c path names := by
  refine ⟨isPathReading tree root, ?_, ?_⟩
  . intro text text' path path' h h'
    exact (projectPath_eq_ok_iff.1 h).isSame_iff (projectPath_eq_ok_iff.1 h')
  . intro system c policy h path hpath
    have hextend : ∃ names, path = root.extend names ∧ ∀ name ∈ names, Path.IsName name := by
      rcases hpath with rfl | ⟨e, he, rfl⟩
      . exact ⟨[], rfl, by simp⟩
      . exact Listing.exists_extend_of_mem_within system.proper he
    obtain ⟨names, rfl, hnames⟩ := hextend
    refine ⟨names, rfl, hnames, ?_, follows_of_resolve h hnames⟩
    exact fun text hspells => hspells.projectPath_eq

theorem Policy.resolve_follows_spelling_sample
    : ∃ (system : FileSystem) (c : Config) (policy : Policy String),
        Policy.resolve .ok system.tree ⟨"/p"⟩ c = .ok policy
          ∧ policy.isIgnored ⟨"/p/src/gen"⟩ = true ∧ policy.overrideFor? ⟨"/p/src/a.rs"⟩ ≠ none := by
  let system : FileSystem :=
    ⟨.directory [("p", .directory [("src", .directory [("a.rs", .file .empty), ("gen", .directory [])])])],
      by decide⟩
  let c : Config :=
    { Config.empty with
      ignored := ["./src//gen/"]
      overrides := [⟨none, some "src/./a.rs/", ⟨none, none⟩⟩] }
  have hisOk : (Policy.resolve .ok system.tree ⟨"/p"⟩ c : Except PolicyError (Policy String)).isOk = true := by
    decide +kernel
  cases h : Policy.resolve .ok system.tree ⟨"/p"⟩ c with
  | error e =>
    rw [h] at hisOk
    contradiction
  | ok policy =>
    have hfollows (names : List RawText) (hnames : ∀ name ∈ names, Path.IsName name)
        (hwithin : ∃ e ∈ (Listing.ofPath system.tree ⟨"/p"⟩).within, e.path = Path.extend ⟨"/p"⟩ names)
        : policy.Follows c (Path.extend ⟨"/p"⟩ names) names := by
      obtain ⟨others, heq, hothers, _, hfollows⟩ :=
        (resolve_follows_spelling .ok system.tree ⟨"/p"⟩).2.2 system c policy h _ (.inr hwithin)
      have := Path.extend_components_inj hnames hothers (by rw [heq])
      exact this ▸ hfollows
    have hdirectory := hfollows ["src", "gen"] (by decide) (by decide +kernel)
    have hfile := hfollows ["src", "a.rs"] (by decide) (by decide +kernel)
    have hspelled : Path.Spells "./src//gen/" ["src", "gen"] :=
      ⟨⟨⟨'g', by decide, by decide⟩, by decide, by decide +kernel⟩, by decide +kernel⟩
    have hspelled' : Path.Spells "src/./a.rs/" ["src", "a.rs"] :=
      ⟨⟨⟨'a', by decide, by decide⟩, by decide, by decide +kernel⟩, by decide +kernel⟩
    refine ⟨system, c, policy, h, ?_, ?_⟩
    . exact hdirectory.ignored.2 ⟨_, List.mem_cons_self, hspelled⟩
    . intro hnone
      apply hfile.notOverridden.1 hnone _ List.mem_cons_self
      exact ⟨_, .inr rfl, hspelled'⟩

end PatternLint
