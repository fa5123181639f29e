import PatternLint.Proofs.Following

/-!
This module contains the law of canonical paths: the canonical path of something stands for it, whether a
link at the end of a path is followed or not.
-/

namespace PatternLint

open Text

namespace FileTree

structure StandsAt (t : FileTree) (here : List RawText) : Prop where
  exists_found : ∃ found, t.descend here.reverse = some found ∧ ∀ target, found ≠ .link target
  short : ∀ name ∈ here, ¬ maxNameLength < name.size

section Follows

variable {t : FileTree} {followLast : Bool} {links : Nat} {here result : List RawText}
  {parts : List (List UInt8)}

theorem StandsAt.of_append (more : List RawText) (h : t.StandsAt (more ++ here)) : t.StandsAt here := by
  obtain ⟨found, hfound, hlink⟩ := h.exists_found
  rw [List.reverse_append, descend_append, Option.bind_eq_some_iff] at hfound
  obtain ⟨node, hnode, hbelow⟩ := hfound
  refine ⟨⟨node, hnode, ?_⟩, fun name hname => h.short name (List.mem_append_right _ hname)⟩
  rintro target rfl
  -- nothing stands below a link
  cases hmore : more.reverse with
  | nil =>
    rw [hmore] at hbelow
    cases hbelow
    exact hlink target rfl
  | cons name names =>
    rw [hmore] at hbelow
    contradiction

theorem StandsAt.tail (h : t.StandsAt here) : t.StandsAt here.tail := by
  cases here with
  | nil => exact h
  | cons name here => exact StandsAt.of_append [name] h

theorem StandsAt.linkStart (h : t.StandsAt here) (target : RawText) : t.StandsAt (linkStart target here) := by
  unfold FileTree.linkStart
  split
  . exact StandsAt.of_append here (by rwa [List.append_nil])
  . exact h

theorem Follows.standsAt (h : t.Follows true links here parts result) (hhere : t.StandsAt here)
    : t.StandsAt result := by
  induction h with
  | done links here => exact hhere
  | stay _ _ _ _ ih => exact ih hhere
  | leave _ _ _ ih => exact ih hhere.tail
  | @enter _ _ _ _ _ _ name found hdirectory _ hshort hentry hlink _ ih =>
    refine ih ⟨⟨found, (descend_snoc hdirectory).trans hentry, hlink⟩, ?_⟩
    rw [List.forall_mem_cons]
    exact ⟨hshort, hhere.short⟩
  | last _ _ _ _ _ hlast => contradiction
  | jump _ _ _ _ _ _ _ ih => exact ih (hhere.linkStart _)

theorem Follows.of_descend {names : List RawText} {node found : FileTree}
    (hnames : ∀ name ∈ names, Path.IsName name ∧ ¬ maxNameLength < name.size)
    (hnode : t.descend here.reverse = some node) (hfound : descend names node = some found)
    (hlink : ∀ target, found ≠ .link target)
    : t.Follows followLast links here (names.map RawText.toList) (names.reverse ++ here) := by
  induction names generalizing here node with
  | nil => exact .done links here
  | cons name names ih =>
    rw [List.forall_mem_cons] at hnames
    obtain ⟨⟨hname, hshort⟩, hnames⟩ := hnames
    cases node with
    | file content => contradiction
    | link target => contradiction
    | directory entries =>
      obtain ⟨below, hbelow, hfound⟩ := descend_cons_eq_some_iff.1 hfound
      have hnext := (descend_snoc hnode).trans hbelow
      rw [List.map_cons, List.reverse_cons, List.append_assoc]
      refine .enter hnode hname.componentOfPart? hshort hbelow ?_ (ih hnames hnext hfound)
      rintro target rfl
      cases names with
      | nil =>
        cases hfound
        exact hlink target rfl
      | cons name names => contradiction

theorem Follows.exists_directory (h : t.Follows followLast links here parts result) (hparts : parts ≠ [])
    : ∃ entries, t.descend here.reverse = some (.directory entries) := by
  cases h with
  | done => contradiction
  | stay hdirectory | leave hdirectory | enter hdirectory | last hdirectory | jump hdirectory =>
    exact ⟨_, hdirectory⟩

end Follows

section Path

variable {t : FileTree} {followLast : Bool} {p : Path}

theorem locate_eq_ok_iff {names : List RawText}
    : t.locate followLast p = .ok names
        ↔
      0 ∉ p.text.toList ∧ p.text ≠ ""
        ∧ t.Follows followLast maxLinks [] (splitAt Path.slash p.text.toList) names.reverse := by
  unfold locate
  by_cases hzero : 0 ∈ p.text.toList
  . simp [hzero]
  . by_cases hempty : p.text = ""
    . simp [hempty]
    . rw [if_neg (by simp [hzero]), if_neg (by simp [hempty]), map_eq_ok_iff]
      simp only [follow_eq_ok_iff, hzero, hempty, not_false_eq_true, true_and, ne_eq]
      constructor
      . rintro ⟨result, hresult, rfl⟩
        rwa [List.reverse_reverse]
      . intro h
        exact ⟨_, h, List.reverse_reverse _⟩

theorem splitAt_canonical {names : List RawText} (h : ∀ name ∈ names, Path.IsName name)
    : splitAt Path.slash (Path.ofParts .root (names.map RawText.toList)).text.toList
        =
      if names = [] then [[], []] else [] :: names.map RawText.toList := by
  have htext : (Path.ofParts .root (names.map RawText.toList)).text.toList
      = [] ++ Path.slash :: (Path.joinParts (names.map RawText.toList)).toList := by
    unfold Path.ofParts
    simp
  have hparts : ∀ part ∈ names.map RawText.toList, Path.slash ∉ part := by
    rw [List.forall_mem_map]
    exact fun name hname => (h name hname).no_slash
  rw [htext, splitAt_append, Path.splitAt_joinParts hparts]
  cases names <;> rfl

theorem exists_resolve_canonicalPath {root : Path} (hproper : t.IsProper)
    (h : t.canonicalPath p = .ok root) (hzero : 0 ∉ root.text.toList)
    : ∃ found, (∀ followLast, t.resolve followLast root = .ok found) ∧ ∀ target, found ≠ .link target := by
  unfold canonicalPath at h
  obtain ⟨names, hlocate, hroot⟩ := bind_eq_ok_iff.1 h
  cases hroot
  obtain ⟨_, _, hfollows⟩ := locate_eq_ok_iff.1 hlocate
  obtain ⟨entries, hentries⟩ := hfollows.exists_directory (splitAt_ne_nil _ _)
  cases hentries
  have hstands := hfollows.standsAt ⟨⟨_, rfl, by simp⟩, by simp⟩
  obtain ⟨found, hfound, hlink⟩ := hstands.exists_found
  rw [List.reverse_reverse] at hfound
  have hnames := (isProper_descend hproper hfound).2
  refine ⟨found, ?_, hlink⟩
  intro followLast
  have hempty : (Path.ofParts .root (names.map RawText.toList)).text ≠ "" := by
    intro hempty
    have := congrArg RawText.toList hempty
    simp [Path.ofParts] at this
  refine resolve_eq_ok_iff.2 ⟨hzero, hempty, names.reverse, ?_, ?_⟩
  . have hpath : Follows (.directory entries) followLast maxLinks [] (names.map RawText.toList)
        (names.reverse ++ []) := by
      refine .of_descend ?_ rfl hfound hlink
      intro name hname
      exact ⟨hnames name hname, hstands.short name (List.mem_reverse.2 hname)⟩
    rw [List.append_nil] at hpath
    rw [splitAt_canonical hnames]
    split
    . next hnil =>
      subst hnil
      exact .stay rfl (by simp) (by simp) (.stay rfl (by simp) (by simp) hpath)
    . exact .stay rfl (by simp) (by simp) hpath
  . rwa [List.reverse_reverse]

end Path

end FileTree

end PatternLint
