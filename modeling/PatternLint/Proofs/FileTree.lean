import PatternLint.Policy.ProjectPath
import PatternLint.Proofs.Except
import PatternLint.Proofs.Path
import PatternLint.Source.Listing

/-!
This module contains the laws of proper file trees, in which the entries of each directory have names
of their own. The names on the way from a directory to what stands below it are then determined by
its path.
-/

namespace PatternLint

namespace Path

theorem components_extend {p : Path} {names : List RawText} (h : ∀ name ∈ names, IsName name)
    : (p.extend names).components = p.components ++ names.map .normal := by
  induction names generalizing p with
  | nil => simp [extend]
  | cons name names ih =>
    have hname := h name List.mem_cons_self
    have hnames := ih (p := p.join ⟨name⟩) fun other hother => h other (List.mem_cons_of_mem _ hother)
    rw [components_join hname] at hnames
    unfold extend at hnames ⊢
    rw [List.foldl_cons, hnames]
    simp

theorem extend_components_inj {p : Path} {names others : List RawText}
    (hnames : ∀ name ∈ names, IsName name) (hothers : ∀ name ∈ others, IsName name)
    (h : (p.extend names).components = (p.extend others).components) : names = others := by
  rw [components_extend hnames, components_extend hothers, List.append_cancel_left_eq] at h
  apply (List.map_inj_right _).1 h
  intro name other heq
  injection heq

end Path

namespace FileTree

mutual

def IsProper : FileTree → Prop
  | .file _ | .link _ => True
  | .directory entries => (entries.map Prod.fst).Nodup ∧ AreProper entries

def AreProper : List (RawText × FileTree) → Prop
  | [] => True
  | (name, t) :: entries => Path.IsName name ∧ IsProper t ∧ AreProper entries

end

mutual

def decideIsProper : (t : FileTree) → Decidable t.IsProper
  | .file _ | .link _ => isTrue trivial
  | .directory entries =>
    have := decideAreProper entries
    inferInstanceAs (Decidable ((entries.map Prod.fst).Nodup ∧ AreProper entries))

def decideAreProper : (entries : List (RawText × FileTree)) → Decidable (AreProper entries)
  | [] => isTrue trivial
  | (name, t) :: entries =>
    have := decideIsProper t
    have := decideAreProper entries
    inferInstanceAs (Decidable (Path.IsName name ∧ IsProper t ∧ AreProper entries))

end

instance (t : FileTree) : Decidable t.IsProper :=
  decideIsProper t

end FileTree

/-- A file system in which every entry of a directory has a name of its own. -/
structure FileSystem where
  tree : FileTree
  proper : tree.IsProper

namespace FileTree

theorem areProper_iff {entries : List (RawText × FileTree)}
    : AreProper entries ↔ ∀ entry ∈ entries, Path.IsName entry.1 ∧ IsProper entry.2 := by
  induction entries with
  | nil => simp [AreProper]
  | cons entry entries ih => simp [AreProper, ih, and_assoc]

theorem decode_eq_ok_iff {content : ByteArray} {text : String}
    : decode content = .ok text ↔ content = text.toUTF8 := by
  unfold decode String.fromUTF8?
  constructor
  . intro h
    split at h
    . next hvalid =>
      cases h
      split at hvalid
      . cases hvalid
        rfl
      . contradiction
    . contradiction
  . rintro rfl
    have hvalid : text.toUTF8.IsValidUTF8 := text.isValidUTF8
    rw [dif_pos hvalid]
    rfl

theorem readText_eq_ok_iff {t : FileTree} {p : Path} {text : String}
    : t.readText p = .ok text ↔ t.resolve true p = .ok (.file text.toUTF8) := by
  unfold readText
  rw [bind_eq_ok_iff]
  constructor
  . rintro ⟨found, hfound, hread⟩
    cases found with
    | file content =>
      rw [hfound, decode_eq_ok_iff.1 hread]
    | link target => contradiction
    | directory entries => contradiction
  . intro hfound
    exact ⟨_, hfound, decode_eq_ok_iff.2 rfl⟩

theorem mem_of_findEntry {entries : List (RawText × FileTree)} {name : RawText} {t : FileTree}
    (h : findEntry entries name = some t) : (name, t) ∈ entries := by
  unfold findEntry at h
  rw [Option.map_eq_some_iff] at h
  obtain ⟨entry, hfind, rfl⟩ := h
  have hname := List.find?_some hfind
  rw [beq_iff_eq] at hname
  subst hname
  exact List.mem_of_find?_eq_some hfind

theorem findEntry_of_mem {entries : List (RawText × FileTree)} {name : RawText} {t : FileTree}
    (hnodup : (entries.map Prod.fst).Nodup) (h : (name, t) ∈ entries)
    : findEntry entries name = some t := by
  unfold findEntry
  induction entries with
  | nil => contradiction
  | cons entry entries ih =>
    rw [List.map_cons, List.nodup_cons] at hnodup
    rcases List.mem_cons.1 h with rfl | h
    . rw [List.find?_cons_of_pos]
      . rfl
      . simp
    . rw [List.find?_cons_of_neg, ih hnodup.2 h]
      simp only [beq_iff_eq]
      intro heq
      apply hnodup.1
      rw [heq]
      exact List.mem_map.2 ⟨_, h, rfl⟩

theorem descend_cons_eq_some_iff {entries : List (RawText × FileTree)} {name : RawText}
    {names : List RawText} {found : FileTree}
    : descend (name :: names) (.directory entries) = some found
        ↔
      ∃ t, findEntry entries name = some t ∧ descend names t = some found := by
  rw [descend, Option.bind_eq_some_iff]

theorem isProper_descend {t found : FileTree} {names : List RawText} (h : t.IsProper)
    (hfound : t.descend names = some found)
    : found.IsProper ∧ ∀ name ∈ names, Path.IsName name := by
  induction names generalizing t with
  | nil =>
    rw [descend] at hfound
    cases hfound
    refine ⟨h, ?_⟩
    intro name hname
    contradiction
  | cons name names ih =>
    cases t with
    | file content => contradiction
    | link target => contradiction
    | directory entries =>
      obtain ⟨t, hentry, hbelow⟩ := descend_cons_eq_some_iff.1 hfound
      obtain ⟨hname, hproper⟩ := areProper_iff.1 h.2 _ (mem_of_findEntry hentry)
      obtain ⟨hfound, hnames⟩ := ih hproper hbelow
      refine ⟨hfound, ?_⟩
      intro other hother
      rcases List.mem_cons.1 hother with rfl | hother
      . exact hname
      . exact hnames other hother

theorem isProper_resolve {t found : FileTree} {followLast : Bool} {p : Path} (h : t.IsProper)
    (hfound : t.resolve followLast p = .ok found) : found.IsProper := by
  unfold resolve at hfound
  cases hlocate : t.locate followLast p with
  | error e =>
    rw [hlocate] at hfound
    contradiction
  | ok names =>
    rw [hlocate] at hfound
    dsimp [bind, Except.bind] at hfound
    split at hfound
    . next hdescend =>
      cases hfound
      exact (isProper_descend h hdescend).1
    . contradiction

end FileTree

open FileTree

theorem WalkStart.isProper_find {tree : FileTree} {start : Path} {entries : List (RawText × FileTree)}
    (h : tree.IsProper) (hstart : WalkStart.find tree start = .ok (.directory entries))
    : (FileTree.directory entries).IsProper := by
  unfold WalkStart.find at hstart
  cases hfound : tree.resolve false start with
  | error e =>
    rw [hfound] at hstart
    contradiction
  | ok found =>
    rw [hfound] at hstart
    cases found with
    | file content => cases hstart
    | directory children =>
      cases hstart
      exact isProper_resolve h hfound
    | link target =>
      dsimp [bind, Except.bind] at hstart
      cases htarget : tree.resolve true start with
      | error e =>
        rw [htarget] at hstart
        contradiction
      | ok linked =>
        rw [htarget] at hstart
        cases linked with
        | file content => cases hstart
        | link target => cases hstart
        | directory children =>
          cases hstart
          exact isProper_resolve h htarget

namespace FileTree

/-- Something stands at a path below the directory at which a walk starts, by way of no link. -/
def StandsBelow (tree : FileTree) (start p : Path) (found : FileTree) : Prop :=
  ∃ entries names, WalkStart.find tree start = .ok (.directory entries)
    ∧ names ≠ [] ∧ descend names (.directory entries) = some found
    ∧ p.components = (start.extend names).components

def IsRegularBelow (tree : FileTree) (start p : Path) : Prop :=
  ∃ content, tree.StandsBelow start p (.file content)

def IsLinkBelow (tree : FileTree) (start p : Path) : Prop :=
  ∃ target, tree.StandsBelow start p (.link target)

theorem standsBelow_congr {tree : FileTree} {start p q : Path} {found : FileTree}
    (h : p.components = q.components) (hstands : tree.StandsBelow start p found)
    : tree.StandsBelow start q found := by
  obtain ⟨entries, names, hstart, hne, hfound, hp⟩ := hstands
  exact ⟨entries, names, hstart, hne, hfound, h ▸ hp⟩

theorem standsBelow_unique {tree : FileTree} {start p : Path} {found other : FileTree}
    (h : tree.IsProper) (hfound : tree.StandsBelow start p found)
    (hother : tree.StandsBelow start p other) : found = other := by
  obtain ⟨entries, names, hstart, _, hdescend, hp⟩ := hfound
  obtain ⟨entries', names', hstart', _, hdescend', hp'⟩ := hother
  rw [hstart] at hstart'
  cases hstart'
  have hproper := WalkStart.isProper_find h hstart
  have hnames := (isProper_descend hproper hdescend).2
  have hnames' := (isProper_descend hproper hdescend').2
  have : names = names' := Path.extend_components_inj hnames hnames' (hp.symm.trans hp')
  subst this
  rw [hdescend] at hdescend'
  injection hdescend'

end FileTree

end PatternLint
