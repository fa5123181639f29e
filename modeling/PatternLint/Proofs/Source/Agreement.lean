import PatternLint.Proofs.Source.Load
import PatternLint.Proofs.Source.Walk

/-!
This module contains the law of agreement between the walk that loads the sources of a project and
the one that schedules their checks. What is scheduled is what was loaded, but for symbolic links,
which are listed and never loaded.
-/

namespace PatternLint

variable {P : Type}

open FileTree

namespace Plan

structure Passes (policy : Policy P) (tree : FileTree) (nodes : List (Path × FileTree))
    (plan : Plan P) : Prop where
  perm : plan.files.Perm (nodes.map Prod.fst)
  fair : ∀ planned ∈ plan, IsFair policy planned
  nodup : (nodes.map fun node => node.1.components).Nodup
  stands : ∀ node ∈ nodes, tree.StandsBelow policy.root node.1 node.2
  no_directory : ∀ node ∈ nodes, ∀ entries, node.2 ≠ .directory entries

end Plan

mutual

theorem ne_directory_of_mem_sourceNodesAt {skips : Path → RawText → FileTree → Bool} {path : Path}
    {t : FileTree} {node : Path × FileTree} (h : node ∈ sourceNodesAt skips path t)
    : ∀ entries, node.2 ≠ .directory entries := by
  cases t with
  | file content =>
    rw [sourceNodesAt] at h
    split at h
    . rw [List.mem_singleton.1 h]
      simp
    . contradiction
  | link target =>
    rw [sourceNodesAt] at h
    split at h
    . rw [List.mem_singleton.1 h]
      simp
    . contradiction
  | directory entries =>
    rw [sourceNodesAt] at h
    exact ne_directory_of_mem_sourceNodesIn h

theorem ne_directory_of_mem_sourceNodesIn {skips : Path → RawText → FileTree → Bool}
    {directory : Path} {entries : List (RawText × FileTree)} {node : Path × FileTree}
    (h : node ∈ sourceNodesIn skips directory entries)
    : ∀ entries, node.2 ≠ .directory entries := by
  match entries with
  | [] => contradiction
  | (name, t) :: entries =>
    rw [sourceNodesIn, List.mem_append] at h
    rcases h with h | h
    . split at h
      . contradiction
      . exact ne_directory_of_mem_sourceNodesAt h
    . exact ne_directory_of_mem_sourceNodesIn h

end

section Plan

variable {policy : Policy P} {tree : FileTree}

theorem Plan.passes_nil : Passes policy tree [] [] := by
  refine ⟨List.Perm.refl _, ?_, List.nodup_nil, ?_, ?_⟩ <;> intro _ h <;> contradiction

theorem Plan.ofListing_passes {entries : List (RawText × FileTree)} (h : tree.IsProper)
    (hstart : WalkStart.find tree policy.root = .ok (.directory entries))
    : ∃ plan,
        ofListing policy isSourcePath policy.root
            (.entries (Listing.ofEntries policy.root entries)) = .ok plan
          ∧ Passes policy tree (sourceNodesIn (isPassedOver policy.ignored) policy.root entries) plan := by
  have hproper := WalkStart.isProper_find h hstart
  have htree := isTreeAt_ofEntries policy.root hproper
  obtain ⟨plan, hplan, hperm⟩ := ofListing_perm_taken policy isSourcePath htree
  have htaken := takenOfEntries_ofEntries policy policy.root hproper.2
  rw [taken, htaken] at hperm
  refine ⟨plan, hplan, hperm, ?_, ?_, ?_, ?_⟩
  . intro planned hmem
    exact isFair_of_mem_ofListing htree hplan hmem
  . have hsublist : (taken policy isSourcePath _).Sublist _ :=
      taken_sublist (.entries (Listing.ofEntries policy.root entries))
    rw [taken, htaken] at hsublist
    have hnodup := List.Nodup.sublist (hsublist.map Path.components) (Listing.nodup_files htree)
    rw [List.map_map] at hnodup
    exact hnodup
  . intro node hmem
    exact standsBelow_of_mem_sourceNodesIn h hstart hmem
  . intro node hmem
    exact ne_directory_of_mem_sourceNodesIn hmem

theorem exists_passes {entries : List (Path × ByteArray)} (h : tree.IsProper)
    (hroot : ∀ content, WalkStart.find tree policy.root ≠ .ok (.file content))
    (hwalk : Sources.walkOf tree policy.root policy.ignored = .ok entries)
    : ∃ nodes plan, entries = nodes.filterMap (loadedFile? policy.root)
        ∧ Plan.ofProject policy isSourcePath (Listing.ofPath tree policy.root) = .ok plan
        ∧ plan.Passes policy tree nodes := by
  unfold Sources.walkOf at hwalk
  unfold Plan.ofProject Policy.isIgnored
  split at hwalk
  . next hleft =>
    cases hwalk
    rw [if_pos hleft]
    exact ⟨[], [], rfl, rfl, Plan.passes_nil⟩
  . next hkept =>
    rw [if_neg hkept]
    unfold sourcesFrom at hwalk
    unfold Listing.ofPath
    cases hstart : WalkStart.find tree policy.root with
    | error e =>
      rw [hstart] at hwalk
      contradiction
    | ok start =>
      rw [hstart] at hwalk
      cases start with
      | file content => exact absurd hstart (hroot content)
      | linkedFile =>
        cases hwalk
        exact ⟨[], [], rfl, rfl, Plan.passes_nil⟩
      | directory children =>
        cases hwalk
        obtain ⟨plan, hplan, hpasses⟩ := Plan.ofListing_passes h hstart
        have hproper := (WalkStart.isProper_find h hstart).2
        exact ⟨_, plan, sourcesIn_eq_loaded hproper, hplan, hpasses⟩

theorem Plan.ofProject_of_file {content : ByteArray} (isSource : Path → Bool)
    (hstart : WalkStart.find tree policy.root = .ok (.file content))
    : Plan.ofProject policy isSource (Listing.ofPath tree policy.root) = .ok [] := by
  unfold Plan.ofProject Listing.ofPath
  rw [hstart]
  split <;> rfl

end Plan

namespace Sources

theorem unitOf?_eq_none_iff {sources : Sources} {files : List ParsedFile}
    : sources.unitOf? files = none ↔ files = [] := by
  unfold unitOf?
  cases files <;> simp

theorem files_of_unitOf? {sources : Sources} {files : List ParsedFile} {unit : SourceUnit}
    (h : sources.unitOf? files = some unit) : unit.files = files := by
  cases files with
  | nil => contradiction
  | cons first rest =>
    cases h
    rfl

theorem unit?_provider (tree : FileTree) (sources : Sources) (request : UnitRequest)
    : (sources.provider tree).unit? request
        =
      sources.unitOf? (request.files.filterMap sources.file?) := by
  cases request with
  | package directory files => rfl
  | file path =>
    unfold Provider.unit? provider UnitRequest.files
    dsimp
    cases hfile : sources.file? path <;> simp [hfile]

/--
A request for loaded sources is served: it is for regular files and links, of which the regular files
that are not buried are the loaded ones, so that a request is answered unless it is for links and buried
files alone. The first file of the answer for a directory is in that directory.
-/
structure Serves (sources : Sources) (tree : FileTree) (request : UnitRequest) : Prop where
  regular_or_link : ∀ file ∈ request.files,
    tree.IsRegularBelow sources.root file ∨ tree.IsLinkBelow sources.root file
  loaded_iff : ∀ file ∈ request.files,
    (sources.file? file).isSome = true
      ↔ tree.IsRegularBelow sources.root file ∧ ¬ file.IsBuriedBelow sources.root
  answered : ∀ unit, (sources.provider tree).unit? request = some unit →
    unit.files = request.files.filterMap sources.file?
  unanswered_iff : (sources.provider tree).unit? request = none
    ↔ ∀ file ∈ request.files,
      tree.IsLinkBelow sources.root file ∨ file.IsBuriedBelow sources.root
  parent : ∀ directory files unit, request = .package directory files →
    (sources.provider tree).unit? request = some unit →
    ∃ first parent, unit.files.head? = some first ∧ first.path.parent? = some parent
      ∧ parent.isSame directory = true

section Passes

variable {policy : Policy P} {tree : FileTree} {nodes : List (Path × FileTree)} {plan : Plan P}

theorem nodup_loadedFiles (h : (nodes.map fun node => node.1.components).Nodup)
    : ((nodes.filterMap (loadedFile? policy.root)).map fun entry => entry.1.components).Nodup := by
  rw [List.Nodup, List.pairwise_map] at h ⊢
  rw [List.pairwise_filterMap]
  apply h.imp
  rintro node other hne ⟨path, content⟩ hpath ⟨path', content'⟩ hpath'
  obtain ⟨rfl, _⟩ := loadedFile?_eq_some_iff.1 hpath
  obtain ⟨rfl, _⟩ := loadedFile?_eq_some_iff.1 hpath'
  exact hne

theorem nodup_walkOf {entries : List (Path × ByteArray)} (hproper : tree.IsProper)
    (hwalk : walkOf tree policy.root policy.ignored = .ok entries)
    : (entries.map fun entry => entry.1.components).Nodup := by
  by_cases hfile : ∃ content, WalkStart.find tree policy.root = .ok (.file content)
  . obtain ⟨content, hstart⟩ := hfile
    unfold walkOf sourcesFrom at hwalk
    rw [hstart] at hwalk
    split at hwalk
    . cases hwalk
      exact List.nodup_nil
    . cases hwalk
      rw [sourcesAt]
      split
      . exact List.nodup_singleton _
      . exact List.nodup_nil
  . rw [not_exists] at hfile
    obtain ⟨nodes, plan, rfl, _, hpasses⟩ := exists_passes hproper hfile hwalk
    exact nodup_loadedFiles hpasses.nodup

theorem exists_node (h : plan.Passes policy tree nodes) {file : Path} (hfile : file ∈ plan.files)
    : ∃ node ∈ nodes, node.1 = file := by
  exact List.mem_map.1 (h.perm.mem_iff.1 hfile)

theorem contains_iff_of_passes (hproper : tree.IsProper) (h : plan.Passes policy tree nodes)
    (hparses : Parses (nodes.filterMap (loadedFile? policy.root))) (key : List Path.Component)
    : (ofWalk policy.root (nodes.filterMap (loadedFile? policy.root))).files.contains key = true
        ↔
      ∃ file ∈ plan.files, tree.IsRegularBelow policy.root file
        ∧ ¬ file.IsBuriedBelow policy.root ∧ file.components = key := by
  rw [contains_ofWalk_iff hparses (nodup_loadedFiles h.nodup)]
  constructor
  . rintro ⟨⟨path, content⟩, hentry, hkey⟩
    obtain ⟨node, hnode, hloaded⟩ := List.mem_filterMap.1 hentry
    obtain ⟨rfl, hopen⟩ := loadedFile?_eq_some_iff.1 hloaded
    refine ⟨path, ?_, ⟨content, h.stands _ hnode⟩, hopen, hkey⟩
    exact h.perm.mem_iff.2 (List.mem_map_of_mem hnode)
  . rintro ⟨file, hfile, ⟨content, hstands⟩, hopen, hkey⟩
    obtain ⟨node, hnode, rfl⟩ := exists_node h hfile
    refine ⟨(node.1, content), ?_, hkey⟩
    -- a node at the path of a regular file is that file, so it is loaded
    have hsame := standsBelow_unique hproper (h.stands node hnode) hstands
    have hfound : node = (node.1, .file content) := Prod.ext rfl hsame
    exact List.mem_filterMap.2 ⟨node, hnode, loadedFile?_eq_some_iff.2 ⟨hfound, hopen⟩⟩

theorem regular_or_link_of_mem (h : plan.Passes policy tree nodes) {file : Path}
    (hfile : file ∈ plan.files)
    : tree.IsRegularBelow policy.root file ∨ tree.IsLinkBelow policy.root file := by
  obtain ⟨node, hnode, rfl⟩ := exists_node h hfile
  have hstands := h.stands node hnode
  cases hfound : node.2 with
  | file content =>
    rw [hfound] at hstands
    exact .inl ⟨content, hstands⟩
  | link target =>
    rw [hfound] at hstands
    exact .inr ⟨target, hstands⟩
  | directory entries => exact absurd hfound (h.no_directory node hnode entries)

theorem file?_isSome_iff (hproper : tree.IsProper) (h : plan.Passes policy tree nodes)
    (hparses : Parses (nodes.filterMap (loadedFile? policy.root))) {file : Path} (hfile : file ∈ plan.files)
    : ((ofWalk policy.root (nodes.filterMap (loadedFile? policy.root))).file? file).isSome = true
        ↔
      tree.IsRegularBelow policy.root file ∧ ¬ file.IsBuriedBelow policy.root := by
  have hkey := contains_iff_of_passes hproper h hparses file.components
  unfold SortedMap.contains at hkey
  unfold file?
  rw [hkey]
  constructor
  . rintro ⟨other, _, ⟨content, hstands⟩, hopen, hsame⟩
    exact ⟨⟨content, standsBelow_congr hsame hstands⟩, mt (Path.isBuriedBelow_congr hsame).2 hopen⟩
  . rintro ⟨hregular, hopen⟩
    exact ⟨file, hfile, hregular, hopen, rfl⟩

theorem not_isLinkBelow_of_isRegularBelow (hproper : tree.IsProper) {root path : Path}
    (h : tree.IsRegularBelow root path) : ¬ tree.IsLinkBelow root path := by
  rintro ⟨target, hlink⟩
  obtain ⟨content, hregular⟩ := h
  have := standsBelow_unique hproper hregular hlink
  contradiction

theorem file?_eq_none_iff (hproper : tree.IsProper) (h : plan.Passes policy tree nodes)
    (hparses : Parses (nodes.filterMap (loadedFile? policy.root))) {file : Path} (hfile : file ∈ plan.files)
    : (ofWalk policy.root (nodes.filterMap (loadedFile? policy.root))).file? file = none
        ↔
      tree.IsLinkBelow policy.root file ∨ file.IsBuriedBelow policy.root := by
  rw [← Option.not_isSome_iff_eq_none, file?_isSome_iff hproper h hparses hfile, not_and_not_right]
  constructor
  . intro hburied
    rcases regular_or_link_of_mem h hfile with hregular | hlink
    . exact .inr (hburied hregular)
    . exact .inl hlink
  . rintro (hlink | hburied) hregular
    . exact absurd hlink (not_isLinkBelow_of_isRegularBelow hproper hregular)
    . exact hburied

theorem exists_parent_of_passes (h : plan.Passes policy tree nodes)
    (hparses : Parses (nodes.filterMap (loadedFile? policy.root))) {planned : UnitRequest × CheckerSet P}
    (hmem : planned ∈ plan) {directory : Path} {files : List Path} {first : ParsedFile}
    {rest : List ParsedFile} (hrequest : planned.1 = .package directory files)
    (hloaded : files.filterMap (ofWalk policy.root (nodes.filterMap (loadedFile? policy.root))).file?
      = first :: rest)
    : ∃ parent, first.path.parent? = some parent ∧ parent.isSame directory = true := by
  have hfirst : first ∈ files.filterMap
      (ofWalk policy.root (nodes.filterMap (loadedFile? policy.root))).file? := by
    rw [hloaded]
    exact List.mem_cons_self
  -- the path that the first file is found at is one of those asked for in the directory
  obtain ⟨path, hpath, hfile⟩ := List.mem_filterMap.1 hfirst
  obtain ⟨name, hname⟩ := (h.fair planned hmem).children directory files hrequest path hpath
  rw [← path_of_file? hparses (nodup_loadedFiles h.nodup) hfile] at hname
  obtain ⟨parent, hparent, hsame⟩ := Path.components_parent? hname
  refine ⟨parent, hparent, ?_⟩
  unfold Path.isSame
  rw [hsame, decide_eq_true_eq]

theorem serves_of_passes (hproper : tree.IsProper) (h : plan.Passes policy tree nodes)
    (hparses : Parses (nodes.filterMap (loadedFile? policy.root))) {planned : UnitRequest × CheckerSet P}
    (hmem : planned ∈ plan)
    : (ofWalk policy.root (nodes.filterMap (loadedFile? policy.root))).Serves tree planned.1 := by
  have hfiles (file : Path) (hfile : file ∈ planned.1.files) : file ∈ plan.files :=
    List.mem_flatMap.2 ⟨planned, hmem, hfile⟩
  refine ⟨?_, ?_, ?_, ?_, ?_⟩
  . intro file hfile
    exact regular_or_link_of_mem h (hfiles file hfile)
  . intro file hfile
    exact file?_isSome_iff hproper h hparses (hfiles file hfile)
  . intro unit hunit
    rw [unit?_provider] at hunit
    exact files_of_unitOf? hunit
  . rw [unit?_provider, unitOf?_eq_none_iff, List.filterMap_eq_nil_iff]
    apply forall₂_congr
    intro file hfile
    exact file?_eq_none_iff hproper h hparses (hfiles file hfile)
  . intro directory files unit hrequest hunit
    rw [unit?_provider, hrequest] at hunit
    have hloaded := files_of_unitOf? hunit
    cases hunits : unit.files with
    | nil =>
      rw [← hloaded, hunits] at hunit
      contradiction
    | cons first rest =>
      rw [hunits] at hloaded
      obtain ⟨parent, hparent, hsame⟩ :=
        exists_parent_of_passes h hparses hmem hrequest hloaded.symm
      exact ⟨first, parent, rfl, hparent, hsame⟩

end Passes

theorem contains_of_file {policy : Policy P} {tree : FileTree} {content : ByteArray}
    {entries : List (Path × ByteArray)} (hstart : WalkStart.find tree policy.root = .ok (.file content))
    (hwalk : walkOf tree policy.root policy.ignored = .ok entries) (hparses : Parses entries)
    (key : List Path.Component)
    : (ofWalk policy.root entries).files.contains key = true
        ↔
      policy.isIgnored policy.root = false ∧ isSourcePath policy.root = true
        ∧ policy.root.components = key := by
  unfold walkOf sourcesFrom at hwalk
  rw [hstart] at hwalk
  unfold Policy.isIgnored
  cases hleft : policy.ignored.has policy.root with
  | true =>
    rw [if_pos hleft] at hwalk
    cases hwalk
    rw [contains_ofWalk_iff hparses List.nodup_nil]
    simp
  | false =>
    rw [if_neg (by simp [hleft])] at hwalk
    cases hwalk
    rw [sourcesAt] at hparses ⊢
    cases hsource : isSourcePath policy.root with
    | true =>
      rw [hsource, if_pos rfl] at hparses
      rw [if_pos rfl, contains_ofWalk_iff hparses (List.nodup_singleton _)]
      simp
    | false =>
      rw [hsource, if_neg (by simp)] at hparses
      rw [if_neg (by simp), contains_ofWalk_iff hparses List.nodup_nil]
      simp

/--
The law of agreement. If the sources of a project load, there is a plan that all schedules of its
listing follow. Every request of the plan is served, and all files of all scheduled units are loaded
ones. The paths that sources are loaded from are those of the regular files in the plan that are not
buried. A project that is a single file is loaded with nothing planned for it.
-/
theorem load_agrees_with_schedule (policy : Policy P) (system : FileSystem) (sources : Sources)
    (hload : load system.tree policy.root policy.ignored = .ok sources)
    : ∃ plan, Plan.ofProject policy isSourcePath (Listing.ofPath system.tree policy.root) = .ok plan
        ∧ (∀ (U : Type) (provider : Provider U),
          provider.listing policy.root = Listing.ofPath system.tree policy.root →
          provider.isSource = isSourcePath →
          Schedule.ofProject policy provider = .ok (Schedule.ofPlan provider plan))
        ∧ ((∀ content, WalkStart.find system.tree policy.root ≠ .ok (.file content)) →
          ∀ key, sources.files.contains key = true
            ↔ ∃ file ∈ plan.files, system.tree.IsRegularBelow policy.root file
              ∧ ¬ file.IsBuriedBelow policy.root ∧ file.components = key)
        ∧ (∀ content, WalkStart.find system.tree policy.root = .ok (.file content) →
          plan = [] ∧ ∀ key, sources.files.contains key = true
            ↔ policy.isIgnored policy.root = false ∧ isSourcePath policy.root = true
              ∧ policy.root.components = key)
        ∧ (∀ planned ∈ plan, sources.Serves system.tree planned.1)
        ∧ ∀ unit ∈ (Schedule.ofPlan (sources.provider system.tree) plan).units,
          ∀ file ∈ unit.files, sources.file? file.path = some file := by
  obtain ⟨entries, hwalk, hparses, rfl⟩ := load_eq_ok_iff.1 hload
  have hschedule {plan : Plan P}
      (hplan : Plan.ofProject policy isSourcePath (Listing.ofPath system.tree policy.root) = .ok plan)
      (U : Type) (provider : Provider U)
      (hlisting : provider.listing policy.root = Listing.ofPath system.tree policy.root)
      (hsource : provider.isSource = isSourcePath)
      : Schedule.ofProject policy provider = .ok (Schedule.ofPlan provider plan) := by
    rw [Schedule.ofProject_eq_plan, hlisting, hsource, hplan]
    rfl
  by_cases hfile : ∃ content, WalkStart.find system.tree policy.root = .ok (.file content)
  . obtain ⟨content, hstart⟩ := hfile
    have hplan := Plan.ofProject_of_file isSourcePath hstart
    refine ⟨[], hplan, hschedule hplan, ?_, ?_, ?_, ?_⟩
    . intro hroot
      exact absurd hstart (hroot content)
    . intro _ _
      exact ⟨rfl, contains_of_file hstart hwalk hparses⟩
    . intro planned hmem
      contradiction
    . intro unit hunit
      contradiction
  . rw [not_exists] at hfile
    obtain ⟨nodes, plan, rfl, hplan, hpasses⟩ := exists_passes system.proper hfile hwalk
    refine ⟨plan, hplan, hschedule hplan, ?_, ?_, ?_, ?_⟩
    . intro _
      exact contains_iff_of_passes system.proper hpasses hparses
    . intro content hstart
      exact absurd hstart (hfile content)
    . intro planned hmem
      exact serves_of_passes system.proper hpasses hparses hmem
    . intro unit hunit file hfile
      rw [Schedule.units_ofPlan, List.mem_filterMap] at hunit
      obtain ⟨planned, hmem, hunit⟩ := hunit
      split at hunit
      . contradiction
      . rw [(serves_of_passes system.proper hpasses hparses hmem).answered unit hunit] at hfile
        obtain ⟨path, _, hfound⟩ := List.mem_filterMap.1 hfile
        have hpath := path_of_file? hparses (nodup_loadedFiles hpasses.nodup) hfound
        unfold file? at hfound ⊢
        rw [hpath]
        exact hfound

section Sample

def sampleEntries : List (RawText × FileTree) :=
  [("link.rs", .link "one.rs"), ("one.rs", .file .empty), ("one_test.rs", .file .empty),
    ("src", .directory [("two.rs", .file .empty)])]

def sampleSystem : FileSystem :=
  ⟨.directory [("p", .directory sampleEntries)], by decide⟩

def samplePolicy (root : Path) : Policy Unit where
  root := root
  budget := .standard
  registry := .empty
  ignored := .empty
  global := .empty
  overrides := .empty

def sampleSources : Sources :=
  ofWalk ⟨"/p"⟩ [(⟨"/p/one.rs"⟩, .empty), (⟨"/p/src/two.rs"⟩, .empty)]

theorem find_sample : WalkStart.find sampleSystem.tree ⟨"/p"⟩ = .ok (.directory sampleEntries) := by
  rfl

theorem load_sample : load sampleSystem.tree ⟨"/p"⟩ .empty = .ok sampleSources := by
  refine load_eq_ok_iff.2 ⟨_, ?_, ?_, rfl⟩
  . unfold walkOf sourcesFrom
    rw [find_sample]
    rfl
  . intro entry hentry
    simp only [List.mem_cons, List.not_mem_nil, or_false] at hentry
    rcases hentry with rfl | rfl <;> rfl

theorem load_agrees_with_schedule_sample
    : load sampleSystem.tree ⟨"/p"⟩ .empty = .ok sampleSources
        ∧ ∃ plan, Plan.ofProject (samplePolicy ⟨"/p"⟩) isSourcePath
            (Listing.ofPath sampleSystem.tree ⟨"/p"⟩) = .ok plan
          ∧ (∃ file ∈ plan.files, sampleSystem.tree.IsRegularBelow ⟨"/p"⟩ file
            ∧ ¬ file.IsBuriedBelow ⟨"/p"⟩ ∧ file.components = Path.components ⟨"/p/src/two.rs"⟩)
          ∧ ∀ planned ∈ plan, sampleSources.Serves sampleSystem.tree planned.1 := by
  have hroot (content : ByteArray)
      : WalkStart.find sampleSystem.tree (samplePolicy ⟨"/p"⟩).root ≠ .ok (.file content) := by
    unfold samplePolicy
    rw [find_sample]
    simp
  obtain ⟨plan, hplan, _, hkeys, _, hserves, _⟩ :=
    load_agrees_with_schedule (samplePolicy ⟨"/p"⟩) sampleSystem sampleSources load_sample
  have htwo := (hkeys hroot (Path.components ⟨"/p/src/two.rs"⟩)).1 (by decide)
  exact ⟨load_sample, plan, hplan, htwo, hserves⟩

def buriedSystem : FileSystem :=
  ⟨.directory [("p", .directory [("." ++ .ofList [0xff], .directory [("a.rs", .file .empty)])])],
    by decide⟩

theorem load_disagrees_with_schedule
    : (∃ sources, load sampleSystem.tree ⟨"/p/one.rs"⟩ .empty = .ok sources
        ∧ (sources.file? ⟨"/p/one.rs"⟩).isSome = true
        ∧ Plan.ofProject (samplePolicy ⟨"/p/one.rs"⟩) isSourcePath
          (Listing.ofPath sampleSystem.tree ⟨"/p/one.rs"⟩) = .ok [])
      ∧ ∃ sources request, load buriedSystem.tree ⟨"/p"⟩ .empty = .ok sources
        ∧ sources.files = .empty
        ∧ Plan.ofProject (samplePolicy ⟨"/p"⟩) isSourcePath
          (Listing.ofPath buriedSystem.tree ⟨"/p"⟩) = .ok [(request, .empty)]
        ∧ (∃ file ∈ request.files, buriedSystem.tree.IsRegularBelow ⟨"/p"⟩ file)
        ∧ (sources.provider buriedSystem.tree).unit? request = none := by
  have hparses : Parses [(⟨"/p/one.rs"⟩, .empty)] := by
    intro entry hentry
    rw [List.mem_singleton.1 hentry]
    rfl
  refine ⟨⟨_, load_eq_ok_iff.2 ⟨_, rfl, hparses, rfl⟩, by decide, rfl⟩, ?_⟩
  refine ⟨_, .package ⟨"/p/." ++ .ofList [0xff]⟩ [⟨"/p/." ++ .ofList [0xff, 0x2f] ++ "a.rs"⟩],
    load_eq_ok_iff.2 ⟨[], rfl, by simp [Parses], rfl⟩, rfl, rfl, ?_, rfl⟩
  refine ⟨_, List.mem_singleton_self _, .empty, ?_⟩
  exact ⟨_, ["." ++ .ofList [0xff], "a.rs"], rfl, by simp, rfl, by decide⟩

end Sample

end Sources

end PatternLint
