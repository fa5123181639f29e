import PatternLint.Proofs.Policy.Resolve

/-!
This module contains the laws of following paths. What stands below a directory by way of directories
only is what a path through that directory stands for, unless the path cannot be followed at all.
-/

namespace PatternLint

open Text FileTree

namespace FileTree

def linkStart (target : RawText) (here : List RawText) : List RawText :=
  if Path.isAbsolute ⟨target⟩ then [] else here

/--
The parts of a path lead from the directory whose names are `here` to what has the names `result`, by
way of at most `links` links.
-/
inductive Follows (t : FileTree) (followLast : Bool) :
    (links : Nat) → (here : List RawText) → (parts : List (List UInt8)) → (result : List RawText) → Prop
  where
  | done (links : Nat) (here : List RawText) : Follows t followLast links here [] here
  | stay {links : Nat} {here : List RawText} {part : List UInt8} {parts : List (List UInt8)}
      {result : List RawText} {entries : List (RawText × FileTree)}
      (hdirectory : t.descend here.reverse = some (.directory entries))
      (hname : ∀ name, Path.componentOfPart? part ≠ some (.normal name))
      (hparent : Path.componentOfPart? part ≠ some .parent)
      (hrest : Follows t followLast links here parts result)
      : Follows t followLast links here (part :: parts) result
  | leave {links : Nat} {here : List RawText} {part : List UInt8} {parts : List (List UInt8)}
      {result : List RawText} {entries : List (RawText × FileTree)}
      (hdirectory : t.descend here.reverse = some (.directory entries))
      (hparent : Path.componentOfPart? part = some .parent)
      (hrest : Follows t followLast links here.tail parts result)
      : Follows t followLast links here (part :: parts) result
  | enter {links : Nat} {here : List RawText} {part : List UInt8} {parts : List (List UInt8)}
      {result : List RawText} {entries : List (RawText × FileTree)} {name : RawText} {found : FileTree}
      (hdirectory : t.descend here.reverse = some (.directory entries))
      (hname : Path.componentOfPart? part = some (.normal name))
      (hshort : ¬ maxNameLength < name.size)
      (hentry : findEntry entries name = some found) (hlink : ∀ target, found ≠ .link target)
      (hrest : Follows t followLast links (name :: here) parts result)
      : Follows t followLast links here (part :: parts) result
  | last {links : Nat} {here : List RawText} {part : List UInt8} {parts : List (List UInt8)}
      {entries : List (RawText × FileTree)} {name target : RawText}
      (hdirectory : t.descend here.reverse = some (.directory entries))
      (hname : Path.componentOfPart? part = some (.normal name))
      (hshort : ¬ maxNameLength < name.size)
      (hentry : findEntry entries name = some (.link target)) (hparts : parts = [])
      (hlast : followLast = false)
      : Follows t followLast links here (part :: parts) (name :: here)
  | jump {links : Nat} {here : List RawText} {part : List UInt8} {parts : List (List UInt8)}
      {result : List RawText} {entries : List (RawText × FileTree)} {name target : RawText}
      (hdirectory : t.descend here.reverse = some (.directory entries))
      (hname : Path.componentOfPart? part = some (.normal name))
      (hshort : ¬ maxNameLength < name.size)
      (hentry : findEntry entries name = some (.link target))
      (hgo : ¬ (parts.isEmpty && !followLast) = true) (htarget : ¬ target.isEmpty = true)
      (hrest : Follows t followLast links (linkStart target here)
        (splitAt Path.slash target.toList ++ parts) result)
      : Follows t followLast (links + 1) here (part :: parts) result

section Follows

variable {t : FileTree} {followLast : Bool} {links : Nat} {here result : List RawText}
  {part : List UInt8} {parts : List (List UInt8)}

def followLink (t : FileTree) (followLast : Bool) :
    (links : Nat) → (here : List RawText) → (target : RawText) → (rest : List (List UInt8)) →
      Except IoError (List RawText)
  | 0, _, _, _ => .error .tooManyLinks
  | links + 1, here, target, rest =>
    if target.isEmpty then
      .error .notFound
    else
      t.follow followLast links (linkStart target here) (splitAt Path.slash target.toList ++ rest)

theorem follow_nil : t.follow followLast links here [] = .ok here := by
  cases links <;> rfl

theorem follow_cons
    : t.follow followLast links here (part :: parts)
        =
      match t.descend here.reverse with
      | some (directory entries) =>
        match Path.componentOfPart? part with
        | some (.normal name) =>
          if maxNameLength < name.size then
            .error .nameTooLong
          else
            match findEntry entries name with
            | none => .error .notFound
            | some (link target) =>
              if parts.isEmpty && !followLast then
                .ok (name :: here)
              else
                t.followLink followLast links here target parts
            | some _ => t.follow followLast links (name :: here) parts
        | some .parent => t.follow followLast links here.tail parts
        | _ => t.follow followLast links here parts
      | _ => .error .notDirectory := by
  cases links <;> rfl

theorem follow_cons_of_name {entries : List (RawText × FileTree)} {name : RawText}
    (hdirectory : t.descend here.reverse = some (.directory entries))
    (hname : Path.componentOfPart? part = some (.normal name))
    (hshort : ¬ maxNameLength < name.size)
    : t.follow followLast links here (part :: parts)
        =
      match findEntry entries name with
      | none => .error .notFound
      | some (link target) =>
        if parts.isEmpty && !followLast then
          .ok (name :: here)
        else
          t.followLink followLast links here target parts
      | some _ => t.follow followLast links (name :: here) parts := by
  rw [follow_cons, hdirectory]
  dsimp only
  rw [hname]
  dsimp only
  rw [if_neg hshort]

def FollowsLinks (t : FileTree) (followLast : Bool) (links : Nat) : Prop :=
  ∀ here target parts result, t.followLink followLast links here target parts = .ok result ↔
    ¬ target.isEmpty = true ∧ ∃ left, links = left + 1
      ∧ t.Follows followLast left (linkStart target here) (splitAt Path.slash target.toList ++ parts)
        result

theorem Follows.of_follow (hlink : t.FollowsLinks followLast links)
    (h : t.follow followLast links here parts = .ok result)
    : t.Follows followLast links here parts result := by
  induction parts generalizing here with
  | nil =>
    rw [follow_nil] at h
    cases h
    exact .done links _
  | cons part parts ih =>
    rw [follow_cons] at h
    split at h
    . next entries hdirectory =>
      split at h
      . next name hname =>
        split at h
        . contradiction
        . next hshort =>
          split at h
          . contradiction
          . next target hentry =>
            split at h
            . next hlast =>
              rw [Bool.and_eq_true, List.isEmpty_iff, Bool.not_eq_true'] at hlast
              cases h
              exact .last hdirectory hname hshort hentry hlast.1 hlast.2
            . next hgo =>
              obtain ⟨htarget, left, rfl, hrest⟩ := (hlink ..).1 h
              exact .jump hdirectory hname hshort hentry hgo htarget hrest
          . next found hnot hentry =>
            apply Follows.enter hdirectory hname hshort hentry _ (ih h)
            exact hnot
      . next hparent => exact .leave hdirectory hparent (ih h)
      . next hname hparent => exact .stay hdirectory hname hparent (ih h)
    . contradiction

theorem Follows.follow_eq (hlink : t.FollowsLinks followLast links)
    (h : t.Follows followLast links here parts result)
    : t.follow followLast links here parts = .ok result := by
  induction parts generalizing here with
  | nil =>
    cases h
    exact follow_nil
  | cons part parts ih =>
    cases h with
    | stay hdirectory hname hparent hrest =>
      rw [follow_cons, hdirectory]
      dsimp
      split
      . next name heq => exact absurd heq (hname name)
      . contradiction
      . exact ih hrest
    | leave hdirectory hparent hrest =>
      rw [follow_cons, hdirectory]
      dsimp
      rw [hparent]
      exact ih hrest
    | enter hdirectory hname hshort hentry hlinked hrest =>
      rw [follow_cons_of_name hdirectory hname hshort, hentry]
      split
      . next heq => cases heq
      . next heq =>
        cases heq
        exact absurd rfl (hlinked _)
      . exact ih hrest
    | last hdirectory hname hshort hentry hparts hlast =>
      rw [follow_cons_of_name hdirectory hname hshort, hentry]
      simp [hparts, hlast]
    | jump hdirectory hname hshort hentry hgo htarget hrest =>
      rw [follow_cons_of_name hdirectory hname hshort, hentry]
      dsimp only
      rw [if_neg hgo]
      exact (hlink ..).2 ⟨htarget, _, rfl, hrest⟩

theorem followsLinks (t : FileTree) (followLast : Bool) (links : Nat)
    : t.FollowsLinks followLast links := by
  induction links with
  | zero =>
    intro here target parts result
    rw [followLink]
    simp
  | succ links ih =>
    intro here target parts result
    rw [followLink]
    split
    . next hempty => simp [hempty]
    . next hne =>
      constructor
      . intro h
        exact ⟨hne, links, rfl, .of_follow ih h⟩
      . rintro ⟨_, left, heq, h⟩
        cases heq
        exact h.follow_eq ih

theorem follow_eq_ok_iff
    : t.follow followLast links here parts = .ok result ↔ t.Follows followLast links here parts result :=
  ⟨.of_follow (t.followsLinks followLast links), fun h => h.follow_eq (t.followsLinks followLast links)⟩

theorem Follows.split {before after : List (List UInt8)} (hafter : after ≠ [])
    (h : t.Follows followLast links here (before ++ after) result)
    : ∃ middle left, t.Follows true links here before middle
        ∧ t.Follows followLast left middle after result := by
  generalize hparts : before ++ after = parts at h
  induction h generalizing before with
  | done links here => simp [hafter] at hparts
  | stay hdirectory hname hparent hrest ih =>
    rcases before with _ | ⟨part, before⟩
    . rw [List.nil_append] at hparts
      subst hparts
      exact ⟨_, _, .done _ _, .stay hdirectory hname hparent hrest⟩
    . injection hparts with hpart hparts
      obtain ⟨middle, left, hbefore, hresult⟩ := ih hparts
      exact ⟨middle, left, hpart ▸ .stay hdirectory hname hparent hbefore, hresult⟩
  | leave hdirectory hparent hrest ih =>
    rcases before with _ | ⟨part, before⟩
    . rw [List.nil_append] at hparts
      subst hparts
      exact ⟨_, _, .done _ _, .leave hdirectory hparent hrest⟩
    . injection hparts with hpart hparts
      obtain ⟨middle, left, hbefore, hresult⟩ := ih hparts
      exact ⟨middle, left, hpart ▸ .leave hdirectory hparent hbefore, hresult⟩
  | enter hdirectory hname hshort hentry hlink hrest ih =>
    rcases before with _ | ⟨part, before⟩
    . rw [List.nil_append] at hparts
      subst hparts
      exact ⟨_, _, .done _ _, .enter hdirectory hname hshort hentry hlink hrest⟩
    . injection hparts with hpart hparts
      obtain ⟨middle, left, hbefore, hresult⟩ := ih hparts
      exact ⟨middle, left, hpart ▸ .enter hdirectory hname hshort hentry hlink hbefore, hresult⟩
  | @last links _ _ _ _ _ _ hdirectory hname hshort hentry hempty hlast =>
    rcases before with _ | ⟨part, before⟩
    . rw [List.nil_append] at hparts
      subst hparts
      exact ⟨_, links, .done _ _, .last hdirectory hname hshort hentry hempty hlast⟩
    . injection hparts with _ hparts
      rw [hempty] at hparts
      exact absurd (List.append_eq_nil_iff.1 hparts).2 hafter
  | jump hdirectory hname hshort hentry hgo htarget hrest ih =>
    rcases before with _ | ⟨part, before⟩
    . rw [List.nil_append] at hparts
      subst hparts
      exact ⟨_, _, .done _ _, .jump hdirectory hname hshort hentry hgo htarget hrest⟩
    . injection hparts with hpart hparts
      rw [List.append_eq] at hparts
      rw [← hparts, ← List.append_assoc] at ih
      obtain ⟨middle, left, hbefore, hresult⟩ := ih rfl
      refine ⟨middle, left, hpart ▸ .jump hdirectory hname hshort hentry ?_ htarget hbefore, hresult⟩
      simp

theorem descend_append {t : FileTree} (names more : List RawText)
    : t.descend (names ++ more) = (t.descend names).bind (descend more) := by
  induction names generalizing t with
  | nil => rfl
  | cons name names ih =>
    cases t with
    | file content => rfl
    | link target => rfl
    | directory entries =>
      rw [List.cons_append, descend, descend]
      cases findEntry entries name with
      | none => rfl
      | some below => exact ih

theorem descend_snoc {entries : List (RawText × FileTree)} {name : RawText}
    (h : t.descend here.reverse = some (.directory entries))
    : t.descend (name :: here).reverse = findEntry entries name := by
  rw [List.reverse_cons, descend_append, h, Option.bind_some, descend]
  cases findEntry entries name <;> rfl

theorem Follows.follow_last (h : t.Follows false links here parts result)
    : (∃ target, t.descend result.reverse = some (.link target))
        ∨ t.Follows true links here parts result := by
  generalize hlast : false = followLast at h
  induction h with
  | done links here => exact .inr (.done links here)
  | stay hdirectory hname hparent _ ih => exact ih.imp_right (.stay hdirectory hname hparent)
  | leave hdirectory hparent _ ih => exact ih.imp_right (.leave hdirectory hparent)
  | enter hdirectory hname hshort hentry hlink _ ih =>
    exact ih.imp_right (.enter hdirectory hname hshort hentry hlink)
  | last hdirectory hname hshort hentry =>
    exact .inl ⟨_, (descend_snoc hdirectory).trans hentry⟩
  | jump hdirectory hname hshort hentry hgo htarget _ ih =>
    exact ih.imp_right (.jump hdirectory hname hshort hentry (by simp) htarget)

theorem Follows.eq_of_descend {names : List RawText} {node found : FileTree}
    (hnames : ∀ name ∈ names, Path.IsName name) (hnode : t.descend here.reverse = some node)
    (hfound : descend names node = some found) (hlink : ∀ target, found ≠ .link target)
    (h : t.Follows followLast links here (names.map RawText.toList) result)
    : result = names.reverse ++ here := by
  induction names generalizing here node with
  | nil =>
    cases h
    rfl
  | cons name names ih =>
    rw [List.forall_mem_cons] at hnames
    have hpart := hnames.1.componentOfPart?
    cases node with
    | file content => contradiction
    | link target => contradiction
    | directory entries =>
      obtain ⟨below, hbelow, hfound⟩ := descend_cons_eq_some_iff.1 hfound
      have hnext := (descend_snoc hnode).trans hbelow
      -- a link leads down to itself only
      have hbelowLink (target : RawText) : below ≠ .link target := by
        rintro rfl
        cases names with
        | nil =>
          cases hfound
          exact hlink target rfl
        | cons name names => contradiction
      rw [List.map_cons] at h
      cases h with
      | stay _ hname => exact absurd hpart (hname name)
      | leave _ hparent =>
        rw [hpart] at hparent
        cases hparent
      | enter _ hname _ hentry _ hrest =>
        rw [hpart] at hname
        cases hname
        rw [ih hnames.2 hnext hfound hrest]
        simp
      | last hdirectory hname _ hentry | jump hdirectory hname _ hentry =>
        rw [hpart] at hname
        cases hname
        rw [hnode] at hdirectory
        cases hdirectory
        rw [hbelow] at hentry
        injection hentry with hentry
        exact absurd hentry (hbelowLink _)

end Follows

section Resolve

variable {t : FileTree} {followLast : Bool} {p : Path} {found : FileTree}

theorem resolve_eq_ok_iff
    : t.resolve followLast p = .ok found
        ↔
      0 ∉ p.text.toList ∧ p.text ≠ "" ∧ ∃ result,
        t.Follows followLast maxLinks [] (splitAt Path.slash p.text.toList) result
          ∧ t.descend result.reverse = some found := by
  unfold resolve locate
  by_cases hzero : 0 ∈ p.text.toList
  . simp [hzero, bind, Except.bind]
  . by_cases hempty : p.text = ""
    . simp [hempty, bind, Except.bind]
    . rw [if_neg (by simp [hzero]), if_neg (by simp [hempty])]
      simp only [hzero, hempty, not_false_eq_true, true_and, ne_eq, ← follow_eq_ok_iff]
      cases t.follow followLast maxLinks [] (splitAt Path.slash p.text.toList) with
      | error e => simp [bind, Except.bind, Except.map]
      | ok result =>
        dsimp [bind, Except.bind, Except.map]
        simp only [Except.ok.injEq, exists_eq_left']
        cases t.descend result.reverse with
        | none => simp [throw, throwThe, MonadExceptOf.throw]
        | some other => simp [pure, Except.pure]

theorem resolve_true_of_false (h : t.resolve false p = .ok found) (hlink : ∀ target, found ≠ .link target)
    : t.resolve true p = .ok found := by
  obtain ⟨hzero, hempty, result, hfollows, hdescend⟩ := resolve_eq_ok_iff.1 h
  rcases hfollows.follow_last with ⟨target, htarget⟩ | htrue
  . rw [hdescend] at htarget
    injection htarget with htarget
    exact absurd htarget (hlink target)
  . exact resolve_eq_ok_iff.2 ⟨hzero, hempty, result, htrue, hdescend⟩

end Resolve

end FileTree

section Extend

namespace Path

theorem getLast?_slash_name {cs : List UInt8} {name : RawText} (h : IsName name)
    : (cs ++ Path.slash :: name.toList).getLast? ≠ some Path.slash := by
  have hne : name.toList ≠ [] := fun hnil => h.ne_empty (RawText.eq_empty_of_toList hnil)
  have hlast := List.getLast?_eq_some_getLast hne
  rw [List.append_cons, List.getLast?_append, hlast, Option.some_or, ← hlast]
  intro hslash
  exact h.no_slash (List.mem_of_getLast? hslash)

theorem toList_join {p : Path} {name : RawText} (h : IsName name) (hempty : p.text ≠ "")
    (hslash : p.text.toList.getLast? ≠ some Path.slash)
    : (p.join ⟨name⟩).text.toList = p.text.toList ++ Path.slash :: name.toList := by
  unfold join
  rw [h.isAbsolute, if_neg (by simp), if_neg (by simp [hempty, hslash])]
  simp

theorem splitAt_extend {p : Path} {names : List RawText} (hnames : ∀ name ∈ names, IsName name)
    (hempty : p.text ≠ "") (hslash : p.text.toList.getLast? ≠ some Path.slash)
    : splitAt Path.slash (p.extend names).text.toList
        =
      splitAt Path.slash p.text.toList ++ names.map RawText.toList := by
  induction names generalizing p with
  | nil => simp [extend]
  | cons name names ih =>
    rw [List.forall_mem_cons] at hnames
    have htext := toList_join hnames.1 hempty hslash
    unfold extend at ih ⊢
    rw [List.foldl_cons, ih hnames.2, htext, splitAt_append,
      splitAt_eq_singleton hnames.1.no_slash]
    . simp
    . intro hnil
      rw [hnil] at htext
      simp at htext
    . rw [htext]
      exact getLast?_slash_name hnames.1

theorem exists_front {p : Path} (hempty : p.text ≠ "")
    : ∃ front, (splitAt Path.slash p.text.toList = front ∨ splitAt Path.slash p.text.toList = front ++ [[]])
        ∧ ∀ names, names ≠ [] → (∀ name ∈ names, IsName name) →
          splitAt Path.slash (p.extend names).text.toList = front ++ names.map RawText.toList := by
  by_cases hslash : p.text.toList.getLast? = some Path.slash
  . obtain ⟨cs, hcs⟩ := List.getLast?_eq_some_iff.1 hslash
    refine ⟨splitAt Path.slash cs, .inr (by rw [hcs, splitAt_append]; rfl), ?_⟩
    intro names hne hnames
    cases names with
    | nil => contradiction
    | cons name names =>
      rw [List.forall_mem_cons] at hnames
      have htext : (p.join ⟨name⟩).text.toList = cs ++ Path.slash :: name.toList := by
        unfold join
        rw [hnames.1.isAbsolute, if_neg (by simp), if_pos (by simp [hslash])]
        simp [hcs]
      have hjoined : (p.join ⟨name⟩).text ≠ "" := by
        intro hnil
        rw [hnil] at htext
        simp at htext
      have hrest := splitAt_extend hnames.2 hjoined (htext ▸ getLast?_slash_name hnames.1)
      unfold extend at hrest ⊢
      rw [List.foldl_cons, hrest, htext, splitAt_append, splitAt_eq_singleton hnames.1.no_slash]
      simp
  . exact ⟨_, .inl rfl, fun names _ hnames => splitAt_extend hnames hempty hslash⟩

end Path

namespace FileTree

theorem Follows.of_empty_piece {t : FileTree} {followLast : Bool} {links : Nat} {here result : List RawText}
    (h : t.Follows followLast links here [[]] result) : result = here := by
  cases h with
  | stay _ _ _ hrest =>
    cases hrest
    rfl
  | leave _ hparent => contradiction
  | enter _ hname | last _ hname | jump _ hname => contradiction

theorem resolve_extend {t found other : FileTree} {start : Path} {entries : List (RawText × FileTree)}
    {names : List RawText} (hnames : ∀ name ∈ names, Path.IsName name)
    (hstart : t.resolve true start = .ok (.directory entries))
    (hfound : descend names (.directory entries) = some found) (hlink : ∀ target, found ≠ .link target)
    (h : t.resolve true (start.extend names) = .ok other) : other = found := by
  by_cases hne : names = []
  . subst hne
    cases hfound
    have hsame : start.extend [] = start := rfl
    rw [hsame, hstart] at h
    injection h with h
    exact h.symm
  . obtain ⟨_, hempty, here, hhere, hdirectory⟩ := resolve_eq_ok_iff.1 hstart
    obtain ⟨_, _, result, hresult, hother⟩ := resolve_eq_ok_iff.1 h
    obtain ⟨front, hfront, hextend⟩ := Path.exists_front hempty
    rw [hextend names hne hnames] at hresult
    obtain ⟨middle, left, hmiddle, hbelow⟩ := hresult.split (by simpa using hne)
    -- both paths lead to the directory first, whether the text of its own path ends with a slash or not
    have hsame : here = middle := by
      rcases hfront with hfront | hfront
      . rw [hfront, ← follow_eq_ok_iff] at hhere
        rw [← follow_eq_ok_iff, hhere] at hmiddle
        injection hmiddle
      . rw [hfront] at hhere
        obtain ⟨other, _, hother, hlast⟩ := hhere.split (by simp)
        rw [← follow_eq_ok_iff] at hother
        rw [← follow_eq_ok_iff, hother] at hmiddle
        injection hmiddle with hmiddle
        rw [hlast.of_empty_piece, hmiddle]
    subst hsame
    rw [hbelow.eq_of_descend hnames hdirectory hfound hlink, List.reverse_append, List.reverse_reverse,
      descend_append, hdirectory, Option.bind_some, hfound] at hother
    injection hother with hother
    exact hother.symm

end FileTree

end Extend

theorem WalkStart.resolve_of_find {tree : FileTree} {start : Path} {entries : List (RawText × FileTree)}
    (h : WalkStart.find tree start = .ok (.directory entries))
    : tree.resolve true start = .ok (.directory entries) := by
  unfold WalkStart.find at h
  obtain ⟨found, hfound, h⟩ := bind_eq_ok_iff.1 h
  cases found with
  | file content => cases h
  | directory children =>
    cases h
    exact resolve_true_of_false hfound (by simp)
  | link target =>
    obtain ⟨linked, hlinked, h⟩ := bind_eq_ok_iff.1 h
    cases linked <;> cases h
    exact hlinked

theorem WalkStart.resolve_of_find_file {tree : FileTree} {start : Path} {content : ByteArray}
    (h : WalkStart.find tree start = .ok (.file content))
    : tree.resolve true start = .ok (.file content) := by
  unfold WalkStart.find at h
  obtain ⟨found, hfound, h⟩ := bind_eq_ok_iff.1 h
  cases found with
  | directory children => cases h
  | file other =>
    cases h
    exact resolve_true_of_false hfound (by simp)
  | link target =>
    obtain ⟨linked, _, h⟩ := bind_eq_ok_iff.1 h
    cases linked <;> cases h

end PatternLint
