import Mathlib.Data.List.Lex
import PatternLint.Proofs.FileTree
import PatternLint.Proofs.Following
import PatternLint.Proofs.Source.Name
import PatternLint.Source.Load

/-!
This module contains the law of the walk that finds the sources of a project: it comes to the loadable
files, to each of them once, and in the order of their paths.
-/

namespace PatternLint

open FileTree

/-! ### The order of paths -/

namespace Path

def Component.IsBefore : Component → Component → Prop
  | .normal name, .normal other => name.toList < other.toList
  | _, _ => False

def IsBefore (p q : Path) : Prop :=
  List.Lex Component.IsBefore p.components q.components

theorem Component.isBefore_asymm {c d : Component} (h : c.IsBefore d) : ¬ d.IsBefore c := by
  cases c with
  | normal name =>
    cases d with
    | normal other =>
      unfold IsBefore at h ⊢
      exact List.lt_asymm h
    | _ => contradiction
  | _ => contradiction

theorem IsBefore.asymm {p q : Path} (h : p.IsBefore q) : ¬ q.IsBefore p :=
  List.lex_asymm (fun h h' => Component.isBefore_asymm h h') h

theorem isBefore_irrefl (p : Path) : ¬ p.IsBefore p :=
  fun h => h.asymm h

theorem isBefore_extend {p : Path} {name other : RawText} {names others : List RawText}
    (hlt : compare name other = .lt) (hnames : ∀ n ∈ name :: names, IsName n)
    (hothers : ∀ n ∈ other :: others, IsName n)
    : (p.extend (name :: names)).IsBefore (p.extend (other :: others)) := by
  unfold IsBefore
  rw [components_extend hnames, components_extend hothers]
  apply List.Lex.append_left
  exact .rel (RawText.lt_of_compare hlt)

end Path

/-! ### File trees in order -/

namespace FileTree

mutual

def IsOrdered : FileTree → Prop
  | .file _ | .link _ => True
  | .directory entries =>
    (entries.Pairwise fun entry other => compare entry.1 other.1 = .lt) ∧ AreOrdered entries

def AreOrdered : List (RawText × FileTree) → Prop
  | [] => True
  | (_, t) :: entries => IsOrdered t ∧ AreOrdered entries

end

mutual

def decideIsOrdered : (t : FileTree) → Decidable t.IsOrdered
  | .file _ | .link _ => isTrue trivial
  | .directory entries =>
    have := decideAreOrdered entries
    inferInstanceAs (Decidable
      ((entries.Pairwise fun entry other => compare entry.1 other.1 = .lt) ∧ AreOrdered entries))

def decideAreOrdered : (entries : List (RawText × FileTree)) → Decidable (AreOrdered entries)
  | [] => isTrue trivial
  | (_, t) :: entries =>
    have := decideIsOrdered t
    have := decideAreOrdered entries
    inferInstanceAs (Decidable (IsOrdered t ∧ AreOrdered entries))

end

instance (t : FileTree) : Decidable t.IsOrdered :=
  decideIsOrdered t

end FileTree

/-- A file system whose directories are listed in the order of the names in them. -/
structure SortedFileSystem extends FileSystem where
  ordered : tree.IsOrdered

namespace FileTree

theorem areOrdered_iff {entries : List (RawText × FileTree)}
    : AreOrdered entries ↔ ∀ entry ∈ entries, IsOrdered entry.2 := by
  induction entries with
  | nil => simp [AreOrdered]
  | cons entry entries ih => simp [AreOrdered, ih]

theorem isOrdered_descend {t found : FileTree} {names : List RawText} (h : t.IsOrdered)
    (hfound : t.descend names = some found) : found.IsOrdered := by
  induction names generalizing t with
  | nil =>
    rw [descend] at hfound
    cases hfound
    exact h
  | cons name names ih =>
    cases t with
    | file content => contradiction
    | link target => contradiction
    | directory entries =>
      obtain ⟨t, hentry, hbelow⟩ := descend_cons_eq_some_iff.1 hfound
      exact ih (areOrdered_iff.1 h.2 _ (mem_of_findEntry hentry)) hbelow

theorem induction {motive : FileTree → Prop} (file : ∀ content, motive (.file content))
    (link : ∀ target, motive (.link target))
    (directory : ∀ entries, (∀ entry ∈ entries, motive entry.2) → motive (.directory entries))
    (t : FileTree) : motive t := by
  apply FileTree.rec (motive_1 := motive) (motive_2 := fun entries => ∀ entry ∈ entries, motive entry.2)
    (motive_3 := fun entry => motive entry.2)
  . exact file
  . exact link
  . exact directory
  . simp
  . intro entry entries hentry hentries
    exact List.forall_mem_cons.2 ⟨hentry, hentries⟩
  . intro name t ht
    exact ht

end FileTree

theorem WalkStart.isOrdered_find {tree : FileTree} {start : Path} {entries : List (RawText × FileTree)}
    (h : tree.IsOrdered) (hstart : WalkStart.find tree start = .ok (.directory entries))
    : (FileTree.directory entries).IsOrdered := by
  obtain ⟨_, _, result, _, hfound⟩ := resolve_eq_ok_iff.1 (WalkStart.resolve_of_find hstart)
  exact isOrdered_descend h hfound

/-! ### What is loadable -/

def WalkStart.tree? : WalkStart → Option FileTree
  | .directory entries => some (.directory entries)
  | .file content => some (.file content)
  | .linkedFile => none

/--
Nothing is left out on the way that names lead from a directory to a file: no path is ignored, no name on
the way is hidden, and no directory on the way holds the sources of others.
-/
structure IsKept (ignored : PathSet) (directory : Path) (names : List RawText) : Prop where
  kept : ∀ before, before <+: names → ignored.has (directory.extend before) = false
  shown : ∀ name ∈ names, ¬ name.IsHidden
  unvendored : (vendorName : RawText) ∉ names.dropLast

/--
A file can be loaded from a project: it is a regular file that is reached from the root by way of directories
only, nothing is left out on the way, and the file has the name of a source that is no test.
-/
def IsLoadable (tree : FileTree) (root : Path) (ignored : PathSet) (path : Path) (content : ByteArray) :
    Prop :=
  ∃ start names, WalkStart.find tree root = .ok start
    ∧ start.tree?.bind (FileTree.descend names) = some (.file content)
    ∧ IsKept ignored root names
    ∧ path = root.extend names
    ∧ ∃ name : String, path.fileName? = some (.ofString name) ∧ Path.extensionOfName? name = some sourceExtension
      ∧ ∀ suffix ∈ testSuffixes, ¬ suffix.toList <:+ name.toList

theorem isSourcePath_iff {p : Path}
    : isSourcePath p = true
        ↔
      ∃ name : String, p.fileName? = some (.ofString name) ∧ Path.extensionOfName? name = some sourceExtension
        ∧ ∀ suffix ∈ testSuffixes, ¬ suffix.toList <:+ name.toList := by
  have hname (name : String)
      : p.fileName? = some (.ofString name) ↔ p.fileName?.bind RawText.text? = some name := by
    simp only [Option.bind_eq_some_iff, RawText.text?_eq_some_iff, exists_eq_right]
  unfold isSourcePath isTestName
  simp only [hname]
  cases p.fileName?.bind RawText.text? with
  | none => simp
  | some name => simp

section Walk

variable {ignored : PathSet} {directory path p : Path} {content : ByteArray}

theorem isKept_nil_iff : IsKept ignored directory [] ↔ ignored.has directory = false := by
  constructor
  . intro h
    exact h.kept [] (List.prefix_refl [])
  . intro h
    refine ⟨?_, by simp, by simp⟩
    intro before hbefore
    rw [List.prefix_nil.1 hbefore]
    exact h

theorem isKept_cons_iff {name : RawText} {names : List RawText}
    : IsKept ignored directory (name :: names)
        ↔
      ignored.has directory = false ∧ ¬ name.IsHidden ∧ (names ≠ [] → name ≠ vendorName)
        ∧ IsKept ignored (directory.join ⟨name⟩) names := by
  constructor
  . intro h
    refine ⟨h.kept [] List.nil_prefix, h.shown name List.mem_cons_self, ?_, ?_, ?_, ?_⟩
    . rintro hne rfl
      apply h.unvendored
      rw [List.dropLast_cons_of_ne_nil hne]
      exact List.mem_cons_self
    . intro before hbefore
      exact h.kept (name :: before) (List.cons_prefix_cons.2 ⟨rfl, hbefore⟩)
    . intro other hother
      exact h.shown other (List.mem_cons_of_mem _ hother)
    . intro hvendor
      apply h.unvendored
      rw [List.dropLast_cons_of_ne_nil (by rintro rfl; contradiction)]
      exact List.mem_cons_of_mem _ hvendor
  . rintro ⟨hdirectory, hshown, hvendor, hrest⟩
    refine ⟨?_, List.forall_mem_cons.2 ⟨hshown, hrest.shown⟩, ?_⟩
    . intro before hbefore
      cases before with
      | nil => exact hdirectory
      | cons other before =>
        obtain ⟨rfl, hrestBefore⟩ := List.cons_prefix_cons.1 hbefore
        exact hrest.kept before hrestBefore
    . cases names with
      | nil => simp
      | cons other names =>
        rw [List.dropLast_cons_of_ne_nil (by simp), List.mem_cons, not_or]
        exact ⟨(hvendor (by simp)).symm, hrest.unvendored⟩

theorem isLeftOut_eq_false_iff {name : RawText} {t : FileTree}
    : isLeftOut ignored path name t = false
        ↔
      ¬ name.IsHidden ∧ ((∃ entries, t = .directory entries) → name ≠ vendorName)
        ∧ ignored.has path = false := by
  unfold isLeftOut
  rw [← isHiddenName_shown_iff, ne_eq, ← shown_eq_vendorName_iff]
  cases t <;> simp [and_assoc]

theorem mem_sourcesIn_iff {entries : List (RawText × FileTree)}
    : (p, content) ∈ sourcesIn ignored directory entries
        ↔
      ∃ name t, (name, t) ∈ entries ∧ isLeftOut ignored (directory.join ⟨name⟩) name t = false
        ∧ (p, content) ∈ sourcesAt ignored (directory.join ⟨name⟩) t := by
  induction entries with
  | nil => simp [sourcesIn]
  | cons entry entries ih =>
    obtain ⟨name, t⟩ := entry
    rw [sourcesIn, List.mem_append, ih]
    constructor
    . rintro (hfirst | ⟨other, t', hentry, hrest⟩)
      . split at hfirst
        . contradiction
        . next hkept => exact ⟨name, t, List.mem_cons_self, Bool.not_eq_true _ ▸ hkept, hfirst⟩
      . exact ⟨other, t', List.mem_cons_of_mem _ hentry, hrest⟩
    . rintro ⟨other, t', hentry, hkept, hmem⟩
      rcases List.mem_cons.1 hentry with heq | hentry
      . cases heq
        rw [if_neg (by simp [hkept])]
        exact .inl hmem
      . exact .inr ⟨other, t', hentry, hkept, hmem⟩

theorem mem_sourcesAt_iff {t : FileTree} (hproper : t.IsProper) (hpath : ignored.has path = false)
    : (p, content) ∈ sourcesAt ignored path t
        ↔
      ∃ names, t.descend names = some (.file content) ∧ IsKept ignored path names
        ∧ p = path.extend names ∧ isSourcePath p = true := by
  induction t using FileTree.induction generalizing path with
  | file other =>
    rw [sourcesAt]
    constructor
    . intro h
      split at h
      . next hsource =>
        cases List.mem_singleton.1 h
        exact ⟨[], rfl, isKept_nil_iff.2 hpath, rfl, hsource⟩
      . contradiction
    . rintro ⟨names, hfound, _, rfl, hsource⟩
      cases names with
      | nil =>
        cases hfound
        have hsource : isSourcePath path = true := hsource
        rw [if_pos hsource]
        exact List.mem_singleton.2 rfl
      | cons name names => contradiction
  | link target =>
    rw [sourcesAt]
    constructor
    . intro h
      contradiction
    . rintro ⟨names, hfound, _⟩
      cases names with
      | nil => cases hfound
      | cons name names => contradiction
  | directory entries ih =>
    rw [sourcesAt, mem_sourcesIn_iff]
    constructor
    . rintro ⟨name, t, hentry, hkept, hmem⟩
      obtain ⟨hshown, hvendor, hignored⟩ := isLeftOut_eq_false_iff.1 hkept
      have hbelow := (areProper_iff.1 hproper.2 _ hentry).2
      obtain ⟨names, hfound, hnames, hp, hsource⟩ := (ih _ hentry hbelow hignored).1 hmem
      refine ⟨name :: names, ?_, isKept_cons_iff.2 ⟨hpath, hshown, ?_, hnames⟩, hp, hsource⟩
      . exact descend_cons_eq_some_iff.2 ⟨t, findEntry_of_mem hproper.1 hentry, hfound⟩
      . intro hne
        -- something stands below the entry, so it is a directory
        cases t with
        | directory _ => exact hvendor ⟨_, rfl⟩
        | file _ => cases names <;> contradiction
        | link _ => cases names <;> contradiction
    . rintro ⟨names, hfound, hkept, hp, hsource⟩
      cases names with
      | nil => cases hfound
      | cons name names =>
        obtain ⟨t, hentry, hfound⟩ := descend_cons_eq_some_iff.1 hfound
        have hentry := mem_of_findEntry hentry
        obtain ⟨_, hshown, hvendor, hnames⟩ := isKept_cons_iff.1 hkept
        have hignored := hnames.kept [] List.nil_prefix
        have hbelow := (areProper_iff.1 hproper.2 _ hentry).2
        refine ⟨name, t, hentry, isLeftOut_eq_false_iff.2 ⟨hshown, ?_, hignored⟩, ?_⟩
        . rintro ⟨children, rfl⟩
          apply hvendor
          rintro rfl
          cases hfound
        . exact (ih _ hentry hbelow hignored).2 ⟨names, hfound, hnames, hp, hsource⟩

theorem exists_extend_of_mem_sourcesAt {name : RawText} {t : FileTree} {entry : Path × ByteArray}
    (hname : Path.IsName name) (hproper : t.IsProper)
    (hkept : isLeftOut ignored (directory.join ⟨name⟩) name t = false)
    (hmem : entry ∈ sourcesAt ignored (directory.join ⟨name⟩) t)
    : ∃ names, (∀ n ∈ name :: names, Path.IsName n) ∧ entry.1 = directory.extend (name :: names) := by
  obtain ⟨p, content⟩ := entry
  have hignored := (isLeftOut_eq_false_iff.1 hkept).2.2
  obtain ⟨names, hfound, _, hp, _⟩ := (mem_sourcesAt_iff hproper hignored).1 hmem
  exact ⟨names, List.forall_mem_cons.2 ⟨hname, (isProper_descend hproper hfound).2⟩, hp⟩

theorem pairwise_sourcesIn {entries : List (RawText × FileTree)} (hproper : AreProper entries)
    (hordered : entries.Pairwise fun entry other => compare entry.1 other.1 = .lt)
    (hbelow : ∀ entry ∈ entries, ignored.has (directory.join ⟨entry.1⟩) = false →
      (sourcesAt ignored (directory.join ⟨entry.1⟩) entry.2).Pairwise fun a b => a.1.IsBefore b.1)
    : (sourcesIn ignored directory entries).Pairwise fun a b => a.1.IsBefore b.1 := by
  induction entries with
  | nil => exact .nil
  | cons entry entries ih =>
    obtain ⟨name, t⟩ := entry
    obtain ⟨hname, ht, hentries⟩ := hproper
    obtain ⟨hfirst, hrest⟩ := List.pairwise_cons.1 hordered
    obtain ⟨hinside, hothers⟩ := List.forall_mem_cons.1 hbelow
    rw [sourcesIn]
    split
    . exact ih hentries hrest hothers
    . next hkept =>
      rw [Bool.not_eq_true] at hkept
      refine List.pairwise_append.2 ⟨?_, ih hentries hrest hothers, ?_⟩
      . exact hinside (isLeftOut_eq_false_iff.1 hkept).2.2
      . intro a ha b hb
        obtain ⟨other, t', hentry, hkept', hb⟩ := mem_sourcesIn_iff.1 hb
        obtain ⟨hother, ht'⟩ := areProper_iff.1 hentries _ hentry
        obtain ⟨names, hnames, hpath⟩ := exists_extend_of_mem_sourcesAt hname ht hkept ha
        obtain ⟨others, hothers, hpath'⟩ := exists_extend_of_mem_sourcesAt hother ht' hkept' hb
        rw [hpath, hpath']
        exact Path.isBefore_extend (hfirst _ hentry) hnames hothers

theorem pairwise_sourcesAt {t : FileTree} (hproper : t.IsProper) (hordered : t.IsOrdered)
    : (sourcesAt ignored path t).Pairwise fun a b => a.1.IsBefore b.1 := by
  induction t using FileTree.induction generalizing path with
  | file content =>
    rw [sourcesAt]
    split
    . exact List.pairwise_singleton _ _
    . exact .nil
  | link target => exact .nil
  | directory entries ih =>
    rw [sourcesAt]
    apply pairwise_sourcesIn hproper.2 hordered.1
    intro entry hentry _
    exact ih entry hentry (areProper_iff.1 hproper.2 _ hentry).2 (areOrdered_iff.1 hordered.2 _ hentry)

theorem sourcesFrom_eq {tree : FileTree} {root : Path} {start : WalkStart}
    (hstart : WalkStart.find tree root = .ok start)
    : sourcesFrom tree root ignored = .ok ((start.tree?.map (sourcesAt ignored root)).getD []) := by
  unfold sourcesFrom
  rw [hstart]
  cases start with
  | directory entries =>
    unfold WalkStart.tree?
    rw [Option.map_some, Option.getD_some, sourcesAt]
  | file content => rfl
  | linkedFile => rfl

theorem sourcesFrom_lists_loadable {tree : FileTree} {root : Path} {start : WalkStart}
    (hproper : tree.IsProper) (hordered : tree.IsOrdered) (hroot : ignored.has root = false)
    (hstart : WalkStart.find tree root = .ok start)
    : ∃ entries, sourcesFrom tree root ignored = .ok entries
        ∧ (∀ path content, (path, content) ∈ entries ↔ IsLoadable tree root ignored path content)
        ∧ entries.Pairwise fun a b => a.1.IsBefore b.1 := by
  refine ⟨_, sourcesFrom_eq hstart, ?_, ?_⟩
  . intro path content
    unfold IsLoadable
    simp only [hstart, Except.ok.injEq, ← isSourcePath_iff, exists_and_left, exists_eq_left']
    cases start with
    | directory entries =>
      exact mem_sourcesAt_iff (WalkStart.isProper_find hproper hstart) hroot
    | file other => exact mem_sourcesAt_iff (t := .file other) trivial hroot
    | linkedFile => simp [WalkStart.tree?]
  . cases start with
    | directory entries =>
      exact pairwise_sourcesAt (WalkStart.isProper_find hproper hstart)
        (WalkStart.isOrdered_find hordered hstart)
    | file other =>
      show (sourcesAt ignored root (.file other)).Pairwise _
      exact pairwise_sourcesAt trivial trivial
    | linkedFile => exact .nil

end Walk

end PatternLint
