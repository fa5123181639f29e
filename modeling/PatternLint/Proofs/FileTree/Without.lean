import PatternLint.Proofs.FileTree.Canonical

/-!
This module contains the law of file trees that are the same but for some of their files: what stands
elsewhere is found in one of them exactly if it is found in the other.
-/

namespace PatternLint

open Text

namespace FileTree

def goneFrom (gone : List RawText → Bool) (names more : List RawText) : Bool :=
  gone (names ++ more)

def isRegular : FileTree → Bool
  | .file _ => true
  | .link _ | .directory _ => false

mutual

def without (gone : List RawText → Bool) : FileTree → FileTree
  | .file content => .file content
  | .link target => .link target
  | .directory entries => .directory (withoutIn gone entries)

def withoutIn (gone : List RawText → Bool) : List (RawText × FileTree) → List (RawText × FileTree)
  | [] => []
  | (name, t) :: entries =>
    if t.isRegular && gone [name] then
      withoutIn gone entries
    else
      (name, t.without (goneFrom gone [name])) :: withoutIn gone entries

end

def outline : FileTree → FileTree
  | .file _ => .file .empty
  | .link target => .link target
  | .directory _ => .directory []

theorem outline_without (gone : List RawText → Bool) (t : FileTree) : (t.without gone).outline = t.outline := by
  cases t <;> rfl

theorem outline_eq_directory_iff {t : FileTree}
    : t.outline = .directory [] ↔ ∃ entries, t = .directory entries := by
  cases t <;> simp [outline]

theorem outline_eq_link_iff {t : FileTree} {target : RawText} : t.outline = .link target ↔ t = .link target := by
  cases t <;> simp [outline]

theorem without_eq_file_iff {gone : List RawText → Bool} {t : FileTree} {content : ByteArray}
    : t.without gone = .file content ↔ t = .file content := by
  cases t <;> simp [without]

theorem findEntry_cons {n name : RawText} {t : FileTree} {entries : List (RawText × FileTree)}
    : findEntry ((n, t) :: entries) name = if n = name then some t else findEntry entries name := by
  unfold findEntry
  by_cases h : n = name
  . rw [if_pos h, List.find?_cons_of_pos (by simpa using h)]
    rfl
  . rw [if_neg h, List.find?_cons_of_neg (by simpa using h)]

theorem findEntry_eq_none {entries : List (RawText × FileTree)} {name : RawText}
    (h : name ∉ entries.map Prod.fst) : findEntry entries name = none := by
  cases hentry : findEntry entries name with
  | none => rfl
  | some t => exact absurd (List.mem_map_of_mem (mem_of_findEntry hentry)) h

theorem findEntry_withoutIn {gone : List RawText → Bool} {entries : List (RawText × FileTree)} {name : RawText}
    (hnodup : (entries.map Prod.fst).Nodup)
    : findEntry (withoutIn gone entries) name
        =
      (findEntry entries name).bind fun t =>
        if t.isRegular && gone [name] then none else some (t.without (goneFrom gone [name])) := by
  induction entries with
  | nil => rfl
  | cons entry entries ih =>
    obtain ⟨n, t⟩ := entry
    rw [List.map_cons, List.nodup_cons] at hnodup
    have ih := ih hnodup.2
    rw [withoutIn, findEntry_cons]
    by_cases hname : n = name
    . subst hname
      -- no other entry has the name
      rw [findEntry_eq_none hnodup.1] at ih
      rw [if_pos rfl, Option.bind_some]
      cases t.isRegular && gone [n] with
      | true => exact ih
      | false =>
        rw [if_neg (by simp), if_neg (by simp), findEntry_cons, if_pos rfl]
    . rw [if_neg hname, ← ih]
      cases t.isRegular && gone [n] with
      | true => rfl
      | false => rw [if_neg (by simp), findEntry_cons, if_neg hname]

theorem descend_without {gone : List RawText → Bool} {t found : FileTree} {names : List RawText}
    (h : t.IsProper) (hfound : t.descend names = some found)
    (hkept : gone names = true → ∀ content, found ≠ .file content)
    : (t.without gone).descend names = some (found.without (goneFrom gone names)) := by
  induction names generalizing t gone with
  | nil =>
    cases hfound
    rfl
  | cons name names ih =>
    cases t with
    | file content => contradiction
    | link target => contradiction
    | directory entries =>
      obtain ⟨next, hentry, hrest⟩ := descend_cons_eq_some_iff.1 hfound
      have hnext := (areProper_iff.1 h.2 _ (mem_of_findEntry hentry)).2
      have hstays : (next.isRegular && gone [name]) = false := by
        cases next with
        | directory _ => rfl
        | link _ => rfl
        | file content =>
          -- nothing stands below a file, so it is what is found
          cases names with
          | cons _ _ => contradiction
          | nil =>
            cases hrest
            cases hgone : gone [name] with
            | false => rfl
            | true => exact absurd rfl (hkept hgone content)
      rw [without]
      refine descend_cons_eq_some_iff.2 ⟨next.without (goneFrom gone [name]), ?_, ?_⟩
      . rw [findEntry_withoutIn h.1, hentry, Option.bind_some, hstays]
        rfl
      . exact ih hnext hrest hkept

theorem exists_descend_of_without {gone : List RawText → Bool} {t node : FileTree} {names : List RawText}
    (h : t.IsProper) (hnode : (t.without gone).descend names = some node)
    : ∃ found, t.descend names = some found ∧ node = found.without (goneFrom gone names) := by
  induction names generalizing t gone with
  | nil =>
    cases hnode
    exact ⟨t, rfl, rfl⟩
  | cons name names ih =>
    cases t with
    | file content => contradiction
    | link target => contradiction
    | directory entries =>
      rw [without] at hnode
      obtain ⟨next, hentry, hrest⟩ := descend_cons_eq_some_iff.1 hnode
      rw [findEntry_withoutIn h.1, Option.bind_eq_some_iff] at hentry
      obtain ⟨t, hentry, hnext⟩ := hentry
      split at hnext
      . contradiction
      . cases hnext
        obtain ⟨found, hfound, rfl⟩ := ih (areProper_iff.1 h.2 _ (mem_of_findEntry hentry)).2 hrest
        exact ⟨found, descend_cons_eq_some_iff.2 ⟨t, hentry, hfound⟩, rfl⟩

structure SameBut (gone : List RawText → Bool) (t t' : FileTree) : Prop where
  proper : t.IsProper
  proper' : t'.IsProper
  without_eq : t'.without gone = t.without gone

def SameShape (t t' : FileTree) : Prop :=
  ∀ names, (t'.descend names).map outline = (t.descend names).map outline

namespace SameBut

variable {gone : List RawText → Bool} {t t' found : FileTree} {names : List RawText}

theorem symm (h : SameBut gone t t') : SameBut gone t' t :=
  ⟨h.proper', h.proper, h.without_eq.symm⟩

theorem exists_descend (h : SameBut gone t t') (hfound : t.descend names = some found)
    (hkept : gone names = true → ∀ content, found ≠ .file content)
    : ∃ found', t'.descend names = some found'
        ∧ found'.without (goneFrom gone names) = found.without (goneFrom gone names) := by
  have hwithout := descend_without h.proper hfound hkept
  rw [← h.without_eq] at hwithout
  obtain ⟨found', hfound', heq⟩ := exists_descend_of_without h.proper' hwithout
  exact ⟨found', hfound', heq.symm⟩

theorem exists_directory {entries : List (RawText × FileTree)} (h : SameBut gone t t')
    (hfound : t.descend names = some (.directory entries))
    : ∃ entries', t'.descend names = some (.directory entries')
        ∧ withoutIn (goneFrom gone names) entries' = withoutIn (goneFrom gone names) entries := by
  obtain ⟨found', hfound', heq⟩ := h.exists_descend hfound (by simp)
  cases found' with
  | directory entries' =>
    injection heq with heq
    exact ⟨entries', hfound', heq⟩
  | file content => cases heq
  | link target => cases heq

theorem descend_link {target : RawText} (h : SameBut gone t t')
    (hfound : t.descend names = some (.link target)) : t'.descend names = some (.link target) := by
  obtain ⟨found', hfound', heq⟩ := h.exists_descend hfound (by simp)
  cases found' with
  | link other =>
    cases heq
    exact hfound'
  | file content => cases heq
  | directory entries => cases heq

theorem descend_file {content : ByteArray} (h : SameBut gone t t')
    (hfound : t.descend names = some (.file content)) (hkept : gone names = false)
    : t'.descend names = some (.file content) := by
  obtain ⟨found', hfound', heq⟩ := h.exists_descend hfound (by simp [hkept])
  cases without_eq_file_iff.1 heq
  exact hfound'

theorem outline_eq (h : SameBut gone t t') (hfound : t.descend names = some found)
    (hkept : gone names = true → ∀ content, found ≠ .file content)
    : (t'.descend names).map outline = some found.outline := by
  obtain ⟨found', hfound', heq⟩ := h.exists_descend hfound hkept
  rw [hfound', Option.map_some, ← outline_without, heq, outline_without]

theorem sameShape (h : SameBut gone t t')
    (hthere : ∀ names, gone names = true → (t'.descend names).isSome = (t.descend names).isSome)
    : SameShape t t' := by
  intro names
  cases hgone : gone names with
  | false =>
    cases hfound : t.descend names with
    | some found => exact h.outline_eq hfound (by simp [hgone])
    | none =>
      cases hfound' : t'.descend names with
      | none => rfl
      | some found' =>
        have := h.symm.outline_eq hfound' (by simp [hgone])
        rw [hfound] at this
        contradiction
  | true =>
    have hthere := hthere names hgone
    cases hfound : t.descend names with
    | none =>
      rw [hfound, Option.isSome_none, Option.isSome_eq_false_iff, Option.isNone_iff_eq_none] at hthere
      rw [hthere]
    | some found =>
      rw [hfound] at hthere
      obtain ⟨found', hfound'⟩ := Option.isSome_iff_exists.1 hthere
      by_cases hfile : found'.isRegular = true
      . cases found with
        | file content =>
          cases found' <;> first | contradiction | rw [hfound']; rfl
        | directory entries => exact h.outline_eq hfound (by simp)
        | link target => exact h.outline_eq hfound (by simp)
      . -- what is no file stands in both trees
        have hback := h.symm.outline_eq hfound' (by rintro _ content rfl; exact hfile rfl)
        rw [hfound] at hback
        rw [hfound']
        exact hback.symm

end SameBut

/-! ### Following paths -/

section Follows

variable {gone : List RawText → Bool} {t t' : FileTree} {followLast : Bool} {links : Nat}
  {here result : List RawText} {parts : List (List UInt8)}

theorem Follows.eq_of_file {content : ByteArray} (hhere : t.descend here.reverse = some (.file content))
    (h : t.Follows followLast links here parts result) : result = here := by
  cases h with
  | done => rfl
  | stay hdirectory | leave hdirectory | enter hdirectory | last hdirectory | jump hdirectory =>
    rw [hhere] at hdirectory
    cases hdirectory

theorem Follows.of_sameBut (hsame : SameBut gone t t') (h : t.Follows followLast links here parts result)
    (hkept : gone result.reverse = true → ∀ content, t.descend result.reverse ≠ some (.file content))
    : t'.Follows followLast links here parts result := by
  induction h with
  | done links here => exact .done links here
  | stay hdirectory hname hparent _ ih =>
    obtain ⟨_, hdirectory', _⟩ := hsame.exists_directory hdirectory
    exact .stay hdirectory' hname hparent (ih hkept)
  | leave hdirectory hparent _ ih =>
    obtain ⟨_, hdirectory', _⟩ := hsame.exists_directory hdirectory
    exact .leave hdirectory' hparent (ih hkept)
  | @enter _ _ _ _ _ _ _ found hdirectory hname hshort hentry hlink hrest ih =>
    obtain ⟨_, hdirectory', _⟩ := hsame.exists_directory hdirectory
    have hfound := (descend_snoc hdirectory).trans hentry
    cases found with
    | link target => exact absurd rfl (hlink target)
    | directory entries =>
      obtain ⟨_, hfound', _⟩ := hsame.exists_directory hfound
      rw [descend_snoc hdirectory'] at hfound'
      exact .enter hdirectory' hname hshort hfound' (by simp) (ih hkept)
    | file content =>
      have hend := hrest.eq_of_file hfound
      subst hend
      have hstays := Bool.eq_false_iff.2 fun hgone => hkept hgone content hfound
      have hfound' := hsame.descend_file hfound hstays
      rw [descend_snoc hdirectory'] at hfound'
      exact .enter hdirectory' hname hshort hfound' (by simp) (ih hkept)
  | last hdirectory hname hshort hentry hparts hlast =>
    obtain ⟨_, hdirectory', _⟩ := hsame.exists_directory hdirectory
    have hfound' := hsame.descend_link ((descend_snoc hdirectory).trans hentry)
    rw [descend_snoc hdirectory'] at hfound'
    exact .last hdirectory' hname hshort hfound' hparts hlast
  | jump hdirectory hname hshort hentry hgo htarget _ ih =>
    obtain ⟨_, hdirectory', _⟩ := hsame.exists_directory hdirectory
    have hfound' := hsame.descend_link ((descend_snoc hdirectory).trans hentry)
    rw [descend_snoc hdirectory'] at hfound'
    exact .jump hdirectory' hname hshort hfound' hgo htarget (ih hkept)

end Follows

/-! ### What stands at a path -/

inductive StandsAlike (t t' : FileTree) (p : Path) : Prop where
  | nothing {e e' : IoError} (hfound : t.resolve true p = .error e) (hfound' : t'.resolve true p = .error e')
  | found {found found' : FileTree} (hfound : t.resolve true p = .ok found)
      (hfound' : t'.resolve true p = .ok found') (houtline : found'.outline = found.outline)

namespace StandsAlike

variable {t t' : FileTree} {p : Path}

theorem symm (h : StandsAlike t t' p) : StandsAlike t' t p := by
  cases h with
  | nothing hfound hfound' => exact .nothing hfound' hfound
  | found hfound hfound' houtline => exact .found hfound' hfound houtline.symm

theorem has_eq (h : StandsAlike t t' p) : t'.has p = t.has p := by
  unfold has
  cases h with
  | nothing hfound hfound' =>
    rw [hfound, hfound']
    rfl
  | found hfound hfound' =>
    rw [hfound, hfound']
    rfl

theorem isFile_eq (h : StandsAlike t t' p) : t'.isFile p = t.isFile p := by
  unfold isFile
  cases h with
  | nothing hfound hfound' => rw [hfound, hfound']
  | @found found found' hfound hfound' houtline =>
    rw [hfound, hfound']
    cases found <;> cases found' <;> first | rfl | cases houtline

theorem isDirectory_eq (h : StandsAlike t t' p) : t'.isDirectory p = t.isDirectory p := by
  unfold isDirectory
  cases h with
  | nothing hfound hfound' => rw [hfound, hfound']
  | @found found found' hfound hfound' houtline =>
    rw [hfound, hfound']
    cases found <;> cases found' <;> first | rfl | cases houtline

end StandsAlike

def Spares (gone : List RawText → Bool) (t : FileTree) (p : Path) : Prop :=
  ∀ names, t.locate true p = .ok names → gone names = false

namespace SameBut

variable {gone : List RawText → Bool} {t t' : FileTree} {followLast : Bool} {p : Path}

theorem resolve_directory {entries : List (RawText × FileTree)} (h : SameBut gone t t')
    (hfound : t.resolve followLast p = .ok (.directory entries))
    : ∃ names entries', t'.resolve followLast p = .ok (.directory entries')
        ∧ withoutIn (goneFrom gone names) entries' = withoutIn (goneFrom gone names) entries := by
  obtain ⟨hzero, hempty, result, hfollows, hdescend⟩ := resolve_eq_ok_iff.1 hfound
  obtain ⟨entries', hdescend', heq⟩ := h.exists_directory hdescend
  have hfollows' := hfollows.of_sameBut h (by simp [hdescend])
  exact ⟨_, entries', resolve_eq_ok_iff.2 ⟨hzero, hempty, result, hfollows', hdescend'⟩, heq⟩

theorem resolve_link {target : RawText} (h : SameBut gone t t')
    (hfound : t.resolve followLast p = .ok (.link target)) : t'.resolve followLast p = .ok (.link target) := by
  obtain ⟨hzero, hempty, result, hfollows, hdescend⟩ := resolve_eq_ok_iff.1 hfound
  have hfollows' := hfollows.of_sameBut h (by simp [hdescend])
  exact resolve_eq_ok_iff.2 ⟨hzero, hempty, result, hfollows', h.descend_link hdescend⟩

theorem resolve_file {content : ByteArray} (h : SameBut gone t t') (hspares : Spares gone t p)
    (hfound : t.resolve true p = .ok (.file content)) : t'.resolve true p = .ok (.file content) := by
  obtain ⟨hzero, hempty, result, hfollows, hdescend⟩ := resolve_eq_ok_iff.1 hfound
  have hkept : gone result.reverse = false :=
    hspares _ (locate_eq_ok_iff.2 ⟨hzero, hempty, by rwa [List.reverse_reverse]⟩)
  have hfollows' := hfollows.of_sameBut h (by simp [hkept])
  exact resolve_eq_ok_iff.2 ⟨hzero, hempty, result, hfollows', h.descend_file hdescend hkept⟩

theorem exists_resolve {found : FileTree} (h : SameBut gone t t') (hspares : Spares gone t p)
    (hfound : t.resolve true p = .ok found)
    : ∃ found', t'.resolve true p = .ok found' ∧ found'.outline = found.outline := by
  cases found with
  | file content => exact ⟨_, h.resolve_file hspares hfound, rfl⟩
  | link target => exact ⟨_, h.resolve_link hfound, rfl⟩
  | directory entries =>
    obtain ⟨_, entries', hfound', _⟩ := h.resolve_directory hfound
    exact ⟨_, hfound', rfl⟩

theorem standsAlike (h : SameBut gone t t') (hspares : Spares gone t p) (hspares' : Spares gone t' p)
    : StandsAlike t t' p := by
  cases hfound : t.resolve true p with
  | ok found =>
    obtain ⟨found', hfound', houtline⟩ := h.exists_resolve hspares hfound
    exact .found hfound hfound' houtline
  | error e =>
    cases hfound' : t'.resolve true p with
    | error e' => exact .nothing hfound hfound'
    | ok found' =>
      obtain ⟨found, hback, _⟩ := h.symm.exists_resolve hspares' hfound'
      rw [hfound] at hback
      contradiction

theorem readText_eq_ok {text : String} (h : SameBut gone t t') (hspares : Spares gone t p)
    (hread : t.readText p = .ok text) : t'.readText p = .ok text := by
  unfold readText at hread ⊢
  obtain ⟨found, hfound, hread⟩ := bind_eq_ok_iff.1 hread
  cases found with
  | file content =>
    rw [h.resolve_file hspares hfound]
    exact hread
  | link target => contradiction
  | directory entries => contradiction

theorem resolve_canonicalPath {q q' root : Path} (h : SameBut gone t t') (hroot : t.canonicalPath q = .ok root)
    (hroot' : t'.canonicalPath q' = .ok root) (followLast : Bool)
    : (t'.resolve followLast root).map outline = (t.resolve followLast root).map outline := by
  by_cases hzero : 0 ∈ root.text.toList
  . have herror (t : FileTree) : t.resolve followLast root = .error .zeroByte := by
      unfold resolve locate
      rw [if_pos (by simpa using hzero)]
      rfl
    rw [herror, herror]
  obtain ⟨found, hfound, hlink⟩ := exists_resolve_canonicalPath h.proper hroot hzero
  obtain ⟨found', hfound', hlink'⟩ := exists_resolve_canonicalPath h.proper' hroot' hzero
  rw [hfound, hfound']
  cases found with
  | link target => exact absurd rfl (hlink target)
  | directory entries =>
    obtain ⟨_, entries', hback, _⟩ := h.resolve_directory (hfound followLast)
    rw [hfound'] at hback
    cases hback
    rfl
  | file content =>
    cases found' with
    | link target => exact absurd rfl (hlink' target)
    | file content' => rfl
    | directory entries' =>
      obtain ⟨_, entries, hback, _⟩ := h.symm.resolve_directory (hfound' followLast)
      rw [hfound] at hback
      cases hback

end SameBut

/-! ### File trees of one shape -/

namespace SameShape

variable {t t' : FileTree} {followLast : Bool}

theorem descend_eq_none {names : List RawText} (h : SameShape t t') (hfound : t.descend names = none)
    : t'.descend names = none := by
  have := h names
  rw [hfound] at this
  exact Option.map_eq_none_iff.1 this

theorem exists_directory {names : List RawText} {entries : List (RawText × FileTree)} (h : SameShape t t')
    (hfound : t.descend names = some (.directory entries))
    : ∃ entries', t'.descend names = some (.directory entries') := by
  have := h names
  rw [hfound] at this
  obtain ⟨found', hfound', houtline⟩ := Option.map_eq_some_iff.1 this
  obtain ⟨entries', rfl⟩ := outline_eq_directory_iff.1 houtline
  exact ⟨entries', hfound'⟩

theorem descend_link {names : List RawText} {target : RawText} (h : SameShape t t')
    (hfound : t.descend names = some (.link target)) : t'.descend names = some (.link target) := by
  have := h names
  rw [hfound] at this
  obtain ⟨found', hfound', houtline⟩ := Option.map_eq_some_iff.1 this
  rw [outline_eq_link_iff.1 houtline] at hfound'
  exact hfound'

theorem exists_file {names : List RawText} {content : ByteArray} (h : SameShape t t')
    (hfound : t.descend names = some (.file content))
    : ∃ content', t'.descend names = some (.file content') := by
  have := h names
  rw [hfound] at this
  obtain ⟨found', hfound', houtline⟩ := Option.map_eq_some_iff.1 this
  cases found' with
  | file content' => exact ⟨content', hfound'⟩
  | link target => cases houtline
  | directory entries => cases houtline

theorem follow_eq_of_followLink {links : Nat} (h : SameShape t t')
    (hlinks : ∀ here target parts,
      t'.followLink followLast links here target parts = t.followLink followLast links here target parts)
    (here : List RawText) (parts : List (List UInt8))
    : t'.follow followLast links here parts = t.follow followLast links here parts := by
  induction parts generalizing here with
  | nil => rw [follow_nil, follow_nil]
  | cons part parts ih =>
    rw [follow_cons, follow_cons]
    cases hhere : t.descend here.reverse with
    | none => rw [h.descend_eq_none hhere]
    | some node =>
      cases node with
      | file content =>
        obtain ⟨_, hhere'⟩ := h.exists_file hhere
        rw [hhere']
      | link target => rw [h.descend_link hhere]
      | directory entries =>
        obtain ⟨entries', hhere'⟩ := h.exists_directory hhere
        rw [hhere']
        dsimp only
        cases Path.componentOfPart? part with
        | none => exact ih here
        | some component =>
          cases component with
          | root => exact ih here
          | current => exact ih here
          | parent => exact ih here.tail
          | normal name =>
            dsimp only
            split
            . rfl
            . rw [← descend_snoc hhere, ← descend_snoc hhere']
              cases hfound : t.descend (name :: here).reverse with
              | none => rw [h.descend_eq_none hfound]
              | some found =>
                cases found with
                | file content =>
                  obtain ⟨_, hfound'⟩ := h.exists_file hfound
                  rw [hfound']
                  exact ih _
                | directory children =>
                  obtain ⟨_, hfound'⟩ := h.exists_directory hfound
                  rw [hfound']
                  exact ih _
                | link target =>
                  rw [h.descend_link hfound]
                  dsimp only
                  rw [hlinks]

theorem follow_eq (h : SameShape t t') (links : Nat) (here : List RawText) (parts : List (List UInt8))
    : t'.follow followLast links here parts = t.follow followLast links here parts := by
  induction links generalizing here parts with
  | zero =>
    apply h.follow_eq_of_followLink
    intro here target parts
    rfl
  | succ links ih =>
    apply h.follow_eq_of_followLink
    intro here target parts
    rw [followLink, followLink, ih]

theorem locate_eq (h : SameShape t t') (p : Path) : t'.locate followLast p = t.locate followLast p := by
  unfold locate
  rw [h.follow_eq]

theorem canonicalPath_eq (h : SameShape t t') (p : Path) : t'.canonicalPath p = t.canonicalPath p := by
  unfold canonicalPath
  rw [h.locate_eq]

theorem resolve_map_outline (h : SameShape t t') (followLast : Bool) (p : Path)
    : (t'.resolve followLast p).map outline = (t.resolve followLast p).map outline := by
  unfold resolve
  rw [h.locate_eq]
  cases t.locate followLast p with
  | error e => rfl
  | ok names =>
    have hnames := h names
    dsimp only [bind, Except.bind]
    cases hfound : t.descend names with
    | none => rw [h.descend_eq_none hfound]
    | some found =>
      rw [hfound] at hnames
      obtain ⟨found', hfound', houtline⟩ := Option.map_eq_some_iff.1 hnames
      rw [hfound']
      exact congrArg Except.ok houtline

theorem standsAlike (h : SameShape t t') (p : Path) : StandsAlike t t' p := by
  have houtline := h.resolve_map_outline true p
  cases hfound : t.resolve true p with
  | error e =>
    rw [hfound] at houtline
    exact .nothing hfound (map_eq_error_iff.1 houtline)
  | ok found =>
    rw [hfound] at houtline
    obtain ⟨found', hfound', heq⟩ := map_eq_ok_iff.1 houtline
    exact .found hfound hfound' heq

end SameShape

theorem SameBut.readText_eq {gone : List RawText → Bool} {t t' : FileTree} {p : Path} (h : SameBut gone t t')
    (hshape : SameShape t t') (hspares : Spares gone t p) : t'.readText p = t.readText p := by
  unfold readText resolve
  rw [hshape.locate_eq]
  cases hlocate : t.locate true p with
  | error e => rfl
  | ok names =>
    dsimp only [bind, Except.bind]
    cases hfound : t.descend names with
    | none => rw [hshape.descend_eq_none hfound]
    | some found =>
      cases found with
      | file content => rw [h.descend_file hfound (hspares names hlocate)]
      | link target => rw [h.descend_link hfound]
      | directory entries =>
        obtain ⟨_, hfound', _⟩ := h.exists_directory hfound
        rw [hfound']
        rfl

end FileTree

end PatternLint
