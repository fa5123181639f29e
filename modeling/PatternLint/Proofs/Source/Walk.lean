import PatternLint.Proofs.FileTree
import PatternLint.Proofs.Schedule.Visibility
import PatternLint.Source.Load

/-!
This module contains the laws of the two walks over a file tree: the one that loads its sources, and
the one over the listings of its directories. Both pass by the same files and links, but only the
files among them are loaded.
-/

namespace PatternLint

variable {P : Type}

open FileTree

section Nodes

variable (skips : Path → RawText → FileTree → Bool)

mutual

def sourceNodesAt (path : Path) : FileTree → List (Path × FileTree)
  | .file content => if isSourcePath path then [(path, .file content)] else []
  | .link target => if isSourcePath path then [(path, .link target)] else []
  | .directory entries => sourceNodesIn path entries

def sourceNodesIn (directory : Path) :
    List (RawText × FileTree) → List (Path × FileTree)
  | [] => []
  | (name, t) :: entries =>
    let path := directory.join ⟨name⟩
    let first := if skips path name t then [] else sourceNodesAt path t
    first ++ sourceNodesIn directory entries

end

end Nodes

def regularFile? (node : Path × FileTree) : Option (Path × ByteArray) :=
  match node.2 with
  | .file content => some (node.1, content)
  | _ => none

theorem regularFile?_eq_some_iff {node : Path × FileTree} {path : Path} {content : ByteArray}
    : regularFile? node = some (path, content) ↔ node = (path, .file content) := by
  obtain ⟨p, t⟩ := node
  unfold regularFile?
  cases t <;> simp

mutual

theorem sourcesAt_eq_filterMap (ignored : PathSet) (path : Path) (t : FileTree)
    : sourcesAt ignored path t = (sourceNodesAt (isLeftOut ignored) path t).filterMap regularFile? := by
  cases t with
  | file content =>
    rw [sourcesAt, sourceNodesAt]
    split <;> rfl
  | link target =>
    rw [sourcesAt, sourceNodesAt]
    split <;> rfl
  | directory entries =>
    rw [sourcesAt, sourceNodesAt]
    apply sourcesIn_eq_filterMap

theorem sourcesIn_eq_filterMap (ignored : PathSet) (directory : Path)
    (entries : List (RawText × FileTree))
    : sourcesIn ignored directory entries
        =
      (sourceNodesIn (isLeftOut ignored) directory entries).filterMap regularFile? := by
  match entries with
  | [] => rfl
  | (name, t) :: entries =>
    rw [sourcesIn, sourceNodesIn, List.filterMap_append, sourcesIn_eq_filterMap]
    congr 1
    split
    . rfl
    . apply sourcesAt_eq_filterMap

end

mutual

theorem descend_of_mem_sourceNodesAt {skips : Path → RawText → FileTree → Bool} {path p : Path}
    {t found : FileTree} (h : t.IsProper) (hmem : (p, found) ∈ sourceNodesAt skips path t)
    : ∃ names, p = path.extend names ∧ descend names t = some found := by
  cases t with
  | file content =>
    rw [sourceNodesAt] at hmem
    split at hmem
    . cases List.mem_singleton.1 hmem
      exact ⟨[], rfl, rfl⟩
    . contradiction
  | link target =>
    rw [sourceNodesAt] at hmem
    split at hmem
    . cases List.mem_singleton.1 hmem
      exact ⟨[], rfl, rfl⟩
    . contradiction
  | directory entries =>
    rw [sourceNodesAt] at hmem
    obtain ⟨name, t, hentry, names, hp, hfound⟩ := exists_entry_of_mem_sourceNodesIn h.2 hmem
    refine ⟨name :: names, hp, ?_⟩
    exact descend_cons_eq_some_iff.2 ⟨t, findEntry_of_mem h.1 hentry, hfound⟩

theorem exists_entry_of_mem_sourceNodesIn {skips : Path → RawText → FileTree → Bool}
    {directory p : Path} {entries : List (RawText × FileTree)} {found : FileTree}
    (h : AreProper entries) (hmem : (p, found) ∈ sourceNodesIn skips directory entries)
    : ∃ name t, (name, t) ∈ entries
        ∧ ∃ names, p = directory.extend (name :: names) ∧ descend names t = some found := by
  match entries with
  | [] => contradiction
  | (name, t) :: entries =>
    rw [sourceNodesIn, List.mem_append] at hmem
    rcases hmem with hmem | hmem
    . split at hmem
      . contradiction
      . exact ⟨name, t, List.mem_cons_self, descend_of_mem_sourceNodesAt h.2.1 hmem⟩
    . obtain ⟨other, t, hentry, hbelow⟩ := exists_entry_of_mem_sourceNodesIn h.2.2 hmem
      exact ⟨other, t, List.mem_cons_of_mem _ hentry, hbelow⟩

end

theorem standsBelow_of_mem_sourceNodesIn {tree : FileTree} {skips : Path → RawText → FileTree → Bool}
    {start p : Path} {entries : List (RawText × FileTree)} {found : FileTree} (h : tree.IsProper)
    (hstart : WalkStart.find tree start = .ok (.directory entries))
    (hmem : (p, found) ∈ sourceNodesIn skips start entries)
    : tree.StandsBelow start p found := by
  have hproper := WalkStart.isProper_find h hstart
  obtain ⟨name, t, hentry, names, hp, hfound⟩ := exists_entry_of_mem_sourceNodesIn hproper.2 hmem
  refine ⟨entries, name :: names, hstart, by simp, ?_, by rw [hp]⟩
  exact descend_cons_eq_some_iff.2 ⟨t, findEntry_of_mem hproper.1 hentry, hfound⟩

section Listing

theorem path_ofTree (path : Path) (t : FileTree) : (ListedEntry.ofTree path t).path = path := by
  cases t <;> rfl

theorem map_path_ofEntries (directory : Path) (entries : List (RawText × FileTree))
    : (Listing.ofEntries directory entries).map ListedEntry.path
        =
      entries.map fun entry => directory.join ⟨entry.1⟩ := by
  induction entries with
  | nil => rfl
  | cons entry entries ih => rw [Listing.ofEntries, List.map_cons, path_ofTree, ih, List.map_cons]

theorem nodup_paths_ofEntries {directory : Path} {entries : List (RawText × FileTree)}
    (h : (FileTree.directory entries).IsProper)
    : ((Listing.ofEntries directory entries).map fun entry => entry.path.components).Nodup := by
  -- the paths differ in the last name only, and these are distinct
  have hmap : (Listing.ofEntries directory entries).map (fun entry => entry.path.components)
      = (entries.map Prod.fst).map fun name => directory.components ++ [.normal name] := by
    have := congrArg (List.map Path.components) (map_path_ofEntries directory entries)
    rw [List.map_map, List.map_map] at this
    rw [List.map_map]
    refine .trans this ?_
    apply List.map_congr_left
    intro entry hentry
    exact Path.components_join (areProper_iff.1 h.2 entry hentry).1
  rw [hmap, List.Nodup, List.pairwise_map]
  apply h.1.imp
  intro name other hne heq
  rw [List.append_cancel_left_eq] at heq
  injection heq with heq
  injection heq with heq
  exact hne heq

mutual

theorem isEntryAt_ofTree {directory : Path} {name : RawText} {t : FileTree} (hname : Path.IsName name)
    (h : t.IsProper)
    : Listing.IsEntryAt directory (.ofTree (directory.join ⟨name⟩) t) := by
  have hchild : (directory.join ⟨name⟩).IsChildOf directory := ⟨name, Path.components_join hname⟩
  cases t with
  | file content => exact hchild
  | link target => exact hchild
  | directory entries =>
    refine ⟨hchild, ?_⟩
    exact ⟨nodup_paths_ofEntries h, areEntriesAt_ofEntries h.2⟩

theorem areEntriesAt_ofEntries {directory : Path} {entries : List (RawText × FileTree)}
    (h : AreProper entries) : Listing.AreEntriesAt directory (Listing.ofEntries directory entries) := by
  match entries with
  | [] => trivial
  | (name, t) :: entries =>
    exact ⟨isEntryAt_ofTree h.1 h.2.1, areEntriesAt_ofEntries h.2.2⟩

end

theorem isTreeAt_ofEntries (directory : Path) {entries : List (RawText × FileTree)}
    (h : (FileTree.directory entries).IsProper)
    : (Listing.entries (Listing.ofEntries directory entries)).IsTreeAt directory := by
  exact ⟨nodup_paths_ofEntries h, areEntriesAt_ofEntries h.2⟩

theorem isTreeAt_ofPath {tree : FileTree} {directory : Path} {start : WalkStart} (h : tree.IsProper)
    (hstart : WalkStart.find tree directory = .ok start)
    : (Listing.ofPath tree directory).IsTreeAt directory := by
  unfold Listing.ofPath
  rw [hstart]
  cases start with
  | directory entries => exact isTreeAt_ofEntries directory (WalkStart.isProper_find h hstart)
  | file content => exact ⟨List.nodup_nil, trivial⟩
  | linkedFile => exact ⟨List.nodup_nil, trivial⟩

end Listing

section Scheduled

def isPassedOver (ignored : PathSet) (path : Path) (name : RawText) (t : FileTree) : Bool :=
  name.IsHiddenText || (t matches .directory _ && name == vendorName) || ignored.has path

theorem isLeftOut_eq (ignored : PathSet) (path : Path) (name : RawText) (t : FileTree)
    : isLeftOut ignored path name t = (isPassedOver ignored path name t || name.IsHalfHidden) := by
  have hhidden : isHiddenName name.shown = (decide name.IsHiddenText || decide name.IsHalfHidden) := by
    rw [Bool.eq_iff_iff, isHiddenName_shown_iff, RawText.isHidden_iff]
    simp
  have hvendor : (name.shown == vendorName) = (name == vendorName) := by
    rw [Bool.eq_iff_iff, beq_iff_eq, beq_iff_eq, shown_eq_vendorName_iff]
  unfold isLeftOut isPassedOver
  rw [hhidden, hvendor]
  ac_rfl

variable (policy : Policy P)

theorem admits_eq_isPassedOver (directory : Path) {name : RawText} (h : Path.IsName name) (t : FileTree)
    : policy.admits isSourcePath ⟨directory.join ⟨name⟩, t matches .directory _⟩
        =
      (!isPassedOver policy.ignored (directory.join ⟨name⟩) name t
        && ((t matches .directory _) || isSourcePath (directory.join ⟨name⟩))) := by
  rw [Bool.eq_iff_iff, Policy.admits_iff _ (Path.components_join h)]
  unfold isPassedOver Policy.isIgnored
  cases t <;> simp [and_comm, and_left_comm]

mutual

theorem takenOfEntry_ofTree (directory : Path) {name : RawText} {t : FileTree}
    (hname : Path.IsName name) (h : t.IsProper)
    : Plan.takenOfEntry policy isSourcePath (.ofTree (directory.join ⟨name⟩) t)
        =
      (if isPassedOver policy.ignored (directory.join ⟨name⟩) name t then
        []
      else
        sourceNodesAt (isPassedOver policy.ignored) (directory.join ⟨name⟩) t).map Prod.fst := by
  have hadmits := admits_eq_isPassedOver policy directory hname t
  cases t with
  | file content =>
    dsimp at hadmits
    rw [ListedEntry.ofTree, Plan.takenOfEntry, hadmits, sourceNodesAt]
    cases isPassedOver policy.ignored (directory.join ⟨name⟩) name (.file content) <;>
      cases isSourcePath (directory.join ⟨name⟩) <;> rfl
  | link target =>
    dsimp at hadmits
    rw [ListedEntry.ofTree, Plan.takenOfEntry, hadmits, sourceNodesAt]
    cases isPassedOver policy.ignored (directory.join ⟨name⟩) name (.link target) <;>
      cases isSourcePath (directory.join ⟨name⟩) <;> rfl
  | directory entries =>
    dsimp at hadmits
    rw [ListedEntry.ofTree, Plan.takenOfEntry, hadmits, sourceNodesAt, Plan.taken,
      takenOfEntries_ofEntries _ h.2]
    cases isPassedOver policy.ignored (directory.join ⟨name⟩) name (.directory entries) <;> rfl

theorem takenOfEntries_ofEntries (directory : Path) {entries : List (RawText × FileTree)}
    (h : AreProper entries)
    : Plan.takenOfEntries policy isSourcePath (Listing.ofEntries directory entries)
        =
      (sourceNodesIn (isPassedOver policy.ignored) directory entries).map Prod.fst := by
  match entries with
  | [] => rfl
  | (name, t) :: entries =>
    rw [Listing.ofEntries, Plan.takenOfEntries, takenOfEntry_ofTree _ h.1 h.2.1,
      takenOfEntries_ofEntries _ h.2.2, sourceNodesIn, List.map_append]

end

end Scheduled

section Loaded

def loadedFile? (root : Path) (node : Path × FileTree) : Option (Path × ByteArray) :=
  if node.1.IsBuriedBelow root then none else regularFile? node

theorem loadedFile?_eq_some_iff {root : Path} {node : Path × FileTree} {path : Path}
    {content : ByteArray}
    : loadedFile? root node = some (path, content)
        ↔
      node = (path, .file content) ∧ ¬ path.IsBuriedBelow root := by
  unfold loadedFile?
  split
  . next hburied =>
    rw [iff_false_left (by simp), not_and_not_right]
    rintro rfl
    exact hburied
  . next hopen =>
    rw [regularFile?_eq_some_iff, iff_self_and]
    rintro rfl
    exact hopen

variable {ignored : PathSet}

mutual

theorem sourcesAt_eq_loaded {path : Path} {t : FileTree} (h : t.IsProper)
    : sourcesAt ignored path t
        =
      (sourceNodesAt (isPassedOver ignored) path t).filterMap (loadedFile? path) := by
  cases t with
  | file content =>
    rw [sourcesAt, sourceNodesAt]
    split
    . rw [List.filterMap_cons, loadedFile?, if_neg (Path.not_isBuriedBelow_self path)]
      rfl
    . rfl
  | link target =>
    rw [sourcesAt, sourceNodesAt]
    split
    . rw [List.filterMap_cons, loadedFile?, if_neg (Path.not_isBuriedBelow_self path)]
      rfl
    . rfl
  | directory entries =>
    rw [sourcesAt, sourceNodesAt]
    exact sourcesIn_eq_loaded h.2

theorem sourcesIn_eq_loaded {directory : Path} {entries : List (RawText × FileTree)}
    (h : AreProper entries)
    : sourcesIn ignored directory entries
        =
      (sourceNodesIn (isPassedOver ignored) directory entries).filterMap (loadedFile? directory) := by
  match entries with
  | [] => rfl
  | (name, t) :: entries =>
    rw [sourcesIn, sourceNodesIn, List.filterMap_append, sourcesIn_eq_loaded h.2.2]
    congr 1
    rw [isLeftOut_eq]
    cases isPassedOver ignored (directory.join ⟨name⟩) name t with
    | true => rfl
    | false =>
      have hburied {node : Path × FileTree}
          (hnode : node ∈ sourceNodesAt (isPassedOver ignored) (directory.join ⟨name⟩) t)
          : node.1.IsBuriedBelow directory
            ↔ name.IsHalfHidden ∨ node.1.IsBuriedBelow (directory.join ⟨name⟩) := by
        obtain ⟨names, hpath, hfound⟩ := descend_of_mem_sourceNodesAt h.2.1 hnode
        apply Path.isBuriedBelow_iff (Path.components_join h.1)
        rw [hpath, Path.components_extend (isProper_descend h.2.1 hfound).2]
      by_cases hhalf : name.IsHalfHidden
      . rw [if_pos (by simp [hhalf]), if_neg (by simp)]
        refine (List.filterMap_eq_nil_iff.2 fun node hnode => ?_).symm
        unfold loadedFile?
        rw [if_pos ((hburied hnode).2 (.inl hhalf))]
      . rw [if_neg (by simp [hhalf]), if_neg (by simp), sourcesAt_eq_loaded h.2.1]
        apply List.filterMap_congr
        intro node hnode
        unfold loadedFile?
        simp only [hburied hnode, hhalf, false_or]

end

end Loaded

end PatternLint
