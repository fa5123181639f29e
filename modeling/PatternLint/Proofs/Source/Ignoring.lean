import PatternLint.Proofs.Policy.Resolve
import PatternLint.Proofs.Source.Load
import PatternLint.Proofs.Source.Walk

/-!
This module contains what one more path to leave out changes for the walk that loads the sources of
a project: it comes to the same files as before, but for those at or below the path.
-/

namespace PatternLint

namespace Path

def covers (base p : Path) : Bool :=
  base.components.isPrefixOf p.components

theorem covers_iff {base p : Path} : base.covers p = true ↔ base.components <+: p.components := by
  apply List.isPrefixOf_iff_prefix

theorem covers_eq_false_iff {base p : Path}
    : base.covers p = false ↔ ¬ base.components <+: p.components := by
  rw [← covers_iff, Bool.not_eq_true]

theorem covers_congr {base p q : Path} (h : p.components = q.components)
    : base.covers p = base.covers q := by
  unfold covers
  rw [h]

theorem isSame_iff {p q : Path} : p.isSame q = true ↔ p.components = q.components := by
  unfold isSame
  rw [decide_eq_true_eq]

theorem covers_eq_false_of_isPrefix {base p : Path} (hbelow : p.components <+: base.components)
    (hsame : base.isSame p = false) : base.covers p = false := by
  rw [covers_eq_false_iff]
  intro hpre
  have := hpre.eq_of_length_le hbelow.length_le
  rw [← isSame_iff, hsame] at this
  contradiction

theorem covers_child {base directory child : Path} (h : base.covers directory = false)
    (hchild : child.IsChildOf directory) : base.covers child = base.isSame child := by
  obtain ⟨name, hname⟩ := hchild
  rw [covers_eq_false_iff] at h
  rw [Bool.eq_iff_iff, covers_iff, isSame_iff]
  constructor
  . intro hpre
    rw [hname] at hpre ⊢
    rcases List.prefix_concat_iff.1 hpre with heq | hbelow
    . exact heq
    . exact absurd hbelow h
  . intro heq
    exact heq ▸ List.prefix_refl _

end Path

section Walk

variable {more ignored : PathSet} {path : Path}

theorem isLeftOut_with (h : more.IsWith ignored path) (p : Path) (name : RawText) (t : FileTree)
    : isLeftOut more p name t = (isLeftOut ignored p name t || path.isSame p) := by
  unfold isLeftOut
  rw [h p]
  simp only [Bool.or_assoc]

theorem isPrefix_of_mem_sourcesAt {t : FileTree} {p : Path} {entry : Path × ByteArray}
    (ht : t.IsProper) (hmem : entry ∈ sourcesAt ignored p t)
    : p.components <+: entry.1.components := by
  rw [sourcesAt_eq_filterMap, List.mem_filterMap] at hmem
  obtain ⟨node, hnode, hregular⟩ := hmem
  rw [regularFile?_eq_some_iff.1 hregular] at hnode
  obtain ⟨names, hentry, hfound⟩ := descend_of_mem_sourceNodesAt ht hnode
  rw [hentry, Path.components_extend (FileTree.isProper_descend ht hfound).2]
  apply List.prefix_append

theorem filter_sourcesAt_of_covers {t : FileTree} {p : Path} (ht : t.IsProper)
    (hcovers : path.covers p = true)
    : (sourcesAt ignored p t).filter (fun entry => !path.covers entry.1) = [] := by
  rw [List.filter_eq_nil_iff]
  intro entry hmem
  rw [Bool.not_eq_true, Bool.not_eq_false']
  rw [Path.covers_iff] at hcovers ⊢
  exact hcovers.trans (isPrefix_of_mem_sourcesAt ht hmem)

mutual

theorem sourcesAt_with (h : more.IsWith ignored path) {t : FileTree} {p : Path} (ht : t.IsProper)
    (hout : path.covers p = false)
    : sourcesAt more p t = (sourcesAt ignored p t).filter fun entry => !path.covers entry.1 := by
  cases t with
  | file content =>
    rw [sourcesAt, sourcesAt]
    split
    . simp [hout]
    . rfl
  | link target =>
    rw [sourcesAt, sourcesAt]
    rfl
  | directory entries =>
    rw [sourcesAt, sourcesAt]
    exact sourcesIn_with h ht.2 hout

theorem sourcesIn_with (h : more.IsWith ignored path) {entries : List (RawText × FileTree)}
    {directory : Path} (hentries : FileTree.AreProper entries) (hout : path.covers directory = false)
    : sourcesIn more directory entries
        =
      (sourcesIn ignored directory entries).filter fun entry => !path.covers entry.1 := by
  match entries with
  | [] => rfl
  | (name, t) :: entries =>
    obtain ⟨hname, ht, hrest⟩ := hentries
    have hchild := Path.covers_child hout ⟨name, Path.components_join (p := directory) hname⟩
    rw [sourcesIn, sourcesIn, List.filter_append, sourcesIn_with h hrest hout]
    congr 1
    rw [isLeftOut_with h]
    cases isLeftOut ignored (directory.join ⟨name⟩) name t with
    | true => rfl
    | false =>
      simp only [Bool.false_or, Bool.false_eq_true, ↓reduceIte]
      split
      . next hsame =>
        rw [filter_sourcesAt_of_covers ht]
        rw [hchild]
        exact hsame
      . next hsame =>
        rw [sourcesAt_with h ht]
        rw [hchild, ← Bool.not_eq_true]
        exact hsame

end

namespace Sources

variable {tree : FileTree} {root : Path} {entries : List (Path × ByteArray)}

theorem sourcesAt_directory (ignored : PathSet) (directory : Path)
    (children : List (RawText × FileTree))
    : sourcesIn ignored directory children = sourcesAt ignored directory (.directory children) := by
  rw [sourcesAt]

theorem covers_of_mem_walkOf (htree : tree.IsProper)
    (hwalk : walkOf tree root ignored = .ok entries)
    : ∀ entry ∈ entries, root.covers entry.1 = true := by
  intro entry hentry
  rw [Path.covers_iff]
  unfold walkOf at hwalk
  split at hwalk
  . cases hwalk
    contradiction
  . unfold sourcesFrom at hwalk
    split at hwalk
    . contradiction
    . next children hstart =>
      cases hwalk
      rw [sourcesAt_directory] at hentry
      exact isPrefix_of_mem_sourcesAt (WalkStart.isProper_find htree hstart) hentry
    . next content hstart =>
      cases hwalk
      have hfile : (FileTree.file content).IsProper := trivial
      exact isPrefix_of_mem_sourcesAt hfile hentry
    . cases hwalk
      contradiction

theorem walkOf_with (htree : tree.IsProper) (h : more.IsWith ignored path)
    (hbelow : root.components <+: path.components)
    (hwalk : walkOf tree root ignored = .ok entries)
    : walkOf tree root more = .ok (entries.filter fun entry => !path.covers entry.1) := by
  have hcovered := covers_of_mem_walkOf htree hwalk
  unfold walkOf at hwalk ⊢
  rw [h root]
  by_cases hsame : path.isSame root = true
  . -- the root itself is left out, and everything is below it
    rw [hsame, Bool.or_true, if_pos rfl]
    congr 1
    symm
    rw [List.filter_eq_nil_iff]
    intro entry hentry
    rw [Bool.not_eq_true, Bool.not_eq_false', Path.covers_iff, Path.isSame_iff.1 hsame,
      ← Path.covers_iff]
    exact hcovered entry hentry
  . rw [Bool.not_eq_true] at hsame
    rw [hsame, Bool.or_false]
    have hout := Path.covers_eq_false_of_isPrefix hbelow hsame
    split at hwalk
    . next hleft =>
      rw [if_pos hleft]
      cases hwalk
      rfl
    . next hleft =>
      rw [if_neg hleft]
      unfold sourcesFrom at hwalk ⊢
      split at hwalk
      . contradiction
      . next children hstart =>
        cases hwalk
        rw [sourcesIn_with h (WalkStart.isProper_find htree hstart).2 hout]
      . next content hstart =>
        cases hwalk
        have hfile : (FileTree.file content).IsProper := trivial
        rw [sourcesAt_with h hfile hout]
      . cases hwalk
        rfl

theorem file?_filter (hparses : Parses entries)
    (hnodup : (entries.map fun entry => entry.1.components).Nodup) {p : Path}
    (hout : path.covers p = false)
    : (ofWalk root (entries.filter fun entry => !path.covers entry.1)).file? p
        =
      (ofWalk root entries).file? p := by
  have hparses' : Parses (entries.filter fun entry => !path.covers entry.1) := by
    intro entry hentry
    exact hparses entry (List.mem_of_mem_filter hentry)
  have hnodup' : ((entries.filter fun entry => !path.covers entry.1).map
      fun entry => entry.1.components).Nodup := by
    exact List.Nodup.sublist (List.filter_sublist.map _) hnodup
  unfold file?
  apply Option.ext
  intro file
  rw [find?_ofWalk_eq_some_iff hparses' hnodup', find?_ofWalk_eq_some_iff hparses hnodup]
  constructor
  . rintro ⟨entry, hentry, hfile⟩
    exact ⟨entry, List.mem_of_mem_filter hentry, hfile⟩
  . rintro ⟨entry, hentry, hfile, hkey⟩
    refine ⟨entry, List.mem_filter.2 ⟨hentry, ?_⟩, hfile, hkey⟩
    rw [Path.covers_congr hkey, hout]
    rfl

end Sources

end Walk

end PatternLint
