import PatternLint.Proofs.Syntax.Use

/-!
This module contains what becomes of two colons in front of a member of a group. A declaration that is
accepted goes up to its semicolon, and it is read as imports if no group in it, however deep, has such a
member.
-/

namespace PatternLint.Syntax

-- A member goes on to the end of the group here, only its start counts.
inductive StartsMember (content : List TokenTree) : List TokenTree → Prop where
  | first : StartsMember content content
  | later {before members : List TokenTree} {comma : TokenTree} : IsMark ',' comma →
    content = before ++ comma :: members → StartsMember content members

inductive HasRootedMember : List TokenTree → Prop where
  | here {trees content member : List TokenTree} {opening closing : Location} :
    .group .brace opening closing content ∈ trees → StartsMember content member →
    Peek.punct "::" member = true → HasRootedMember trees
  | inside {trees content : List TokenTree} {opening closing : Location} :
    .group .brace opening closing content ∈ trees → HasRootedMember content → HasRootedMember trees

def IsRootedContent (content : List TokenTree) : Prop :=
  (∃ member, StartsMember content member ∧ Peek.punct "::" member = true) ∨ HasRootedMember content

def IsSeparator (tree : TokenTree) : Prop :=
  IsMark ',' tree ∨ IsMark ';' tree

structure IsPlain (trees : List TokenTree) : Prop where
  separator : ∀ tree ∈ trees, ¬ IsSeparator tree
  member : ¬ HasRootedMember trees

section

variable {trees others : List TokenTree}

theorem HasRootedMember.mono (h : HasRootedMember trees) (hsub : trees ⊆ others)
    : HasRootedMember others := by
  cases h with
  | here hmem hmember hcolons => exact .here (hsub hmem) hmember hcolons
  | inside hmem hcontent => exact .inside (hsub hmem) hcontent

theorem HasRootedMember.exists_mem (h : HasRootedMember trees)
    : ∃ tree ∈ trees, HasRootedMember [tree] := by
  cases h with
  | here hmem hmember hcolons => exact ⟨_, hmem, .here (List.mem_singleton_self _) hmember hcolons⟩
  | inside hmem hcontent => exact ⟨_, hmem, .inside (List.mem_singleton_self _) hcontent⟩

theorem hasRootedMember_append
    : HasRootedMember (trees ++ others) ↔ HasRootedMember trees ∨ HasRootedMember others := by
  constructor
  . intro h
    obtain ⟨tree, hmem, htree⟩ := h.exists_mem
    rcases List.mem_append.1 hmem with hmem | hmem
    . exact .inl (htree.mono (by simpa using hmem))
    . exact .inr (htree.mono (by simpa using hmem))
  . rintro (h | h)
    . exact h.mono (List.subset_append_left _ _)
    . exact h.mono (List.subset_append_right _ _)

theorem not_hasRootedMember_of_ne_group
    (h : ∀ opening closing content, .group .brace opening closing content ∉ trees)
    : ¬ HasRootedMember trees := by
  rintro (⟨hmem, _, _⟩ | ⟨hmem, _⟩)
  . exact h _ _ _ hmem
  . exact h _ _ _ hmem

theorem hasRootedMember_group_iff {content : List TokenTree} {opening closing : Location}
    : HasRootedMember [.group .brace opening closing content] ↔ IsRootedContent content := by
  constructor
  . rintro (⟨hmem, hmember, hcolons⟩ | ⟨hmem, hcontent⟩)
    . cases List.mem_singleton.1 hmem
      exact .inl ⟨_, hmember, hcolons⟩
    . cases List.mem_singleton.1 hmem
      exact .inr hcontent
  . rintro (⟨member, hmember, hcolons⟩ | hcontent)
    . exact .here (List.mem_singleton_self _) hmember hcolons
    . exact .inside (List.mem_singleton_self _) hcontent

theorem not_hasRootedMember_of_isMark {c : Char} {tree : TokenTree} (h : IsMark c tree)
    : ¬ HasRootedMember [tree] := by
  obtain ⟨joint, l, rfl⟩ := h
  exact not_hasRootedMember_of_ne_group (by simp)

end

namespace IsPlain

theorem nil : IsPlain [] :=
  ⟨nofun, not_hasRootedMember_of_ne_group (by simp)⟩

theorem ident (name : String) (l : Location) : IsPlain [.ident name l] :=
  ⟨by simp [IsSeparator, IsMark], not_hasRootedMember_of_ne_group (by simp)⟩

theorem marks {cs : List Char} {marks : List TokenTree} (h : List.Forall₂ IsMark cs marks)
    (hcs : ∀ c ∈ cs, c ≠ ',' ∧ c ≠ ';') : IsPlain marks := by
  induction h with
  | nil => exact nil
  | @cons c mark cs marks hmark _ ih =>
    obtain ⟨hc, hcs⟩ := List.forall_mem_cons.1 hcs
    refine ⟨List.forall_mem_cons.2 ⟨?_, (ih hcs).separator⟩, ?_⟩
    . obtain ⟨_, _, rfl⟩ := hmark
      rintro (⟨_, _, heq⟩ | ⟨_, _, heq⟩)
      . exact hc.1 (TokenTree.punct.inj heq).1
      . exact hc.2 (TokenTree.punct.inj heq).1
    . rw [← List.singleton_append, hasRootedMember_append]
      exact not_or.2 ⟨not_hasRootedMember_of_isMark hmark, (ih hcs).member⟩

end IsPlain

section Content

variable {first members : List TokenTree} {comma : TokenTree} (h : ∀ tree ∈ first, ¬ IsSeparator tree)

include h

theorem isRootedContent_single_iff
    : IsRootedContent first ↔ Peek.punct "::" first = true ∨ HasRootedMember first := by
  refine or_congr ?_ .rfl
  constructor
  . rintro ⟨member, _ | ⟨hcomma, rfl⟩, hcolons⟩
    . exact hcolons
    . exact absurd (.inl hcomma) (h _ (by simp))
  . intro hcolons
    exact ⟨first, .first, hcolons⟩

theorem startsMember_append_iff {member : List TokenTree} (hcomma : IsMark ',' comma)
    : StartsMember (first ++ comma :: members) member
        ↔
      member = first ++ comma :: members ∨ StartsMember members member := by
  constructor
  . rintro (_ | @⟨before, _, other, hother, hcontent⟩)
    . exact .inl rfl
    . right
      rcases List.append_eq_append_iff.1 hcontent with ⟨between, _, hrest⟩ | ⟨between, hfirst, hrest⟩
      . cases between with
        | nil => exact (List.cons.inj hrest).2 ▸ .first
        | cons tree between => exact .later hother (List.cons.inj hrest).2
      . cases between with
        | nil => exact (List.cons.inj hrest).2 ▸ .first
        | cons tree between =>
          obtain ⟨rfl, _⟩ := List.cons.inj hrest
          exact absurd (.inl hother) (h _ (by simp [hfirst]))
  . rintro (rfl | _ | @⟨before, _, other, hother, rfl⟩)
    . exact .first
    . exact .later hcomma rfl
    . exact @StartsMember.later _ (first ++ comma :: before) _ _ hother (by simp)

theorem isRootedContent_append_iff (hcomma : IsMark ',' comma)
    : IsRootedContent (first ++ comma :: members)
        ↔
      (Peek.punct "::" (first ++ comma :: members) = true ∨ HasRootedMember first)
        ∨ IsRootedContent members := by
  unfold IsRootedContent
  rw [← List.singleton_append, hasRootedMember_append, hasRootedMember_append,
    iff_false_intro (not_hasRootedMember_of_isMark hcomma), List.singleton_append]
  simp only [startsMember_append_iff h hcomma, or_and_right, exists_or, exists_eq_left]
  grind

end Content

namespace Grammar

open Syntax.Parser

variable {n : Nat} (g : Nested n)

def Takes (rooted : Prop) (input after : Input n) : Prop :=
  ∃ taken, input.trees = taken ++ after.trees ∧ (∀ tree ∈ taken, ¬ IsSeparator tree)
    ∧ (HasRootedMember taken ↔ rooted)

def TakesPlain (input after : Input n) : Prop :=
  ∃ taken, input.trees = taken ++ after.trees ∧ IsPlain taken

variable {input between after : Input n}

theorem TakesPlain.refl (input : Input n) : TakesPlain input input :=
  ⟨[], rfl, .nil⟩

theorem TakesPlain.takes {rooted : Prop} (h : TakesPlain input after) (hrooted : ¬ rooted)
    : Takes rooted input after := by
  obtain ⟨taken, htaken, hplain⟩ := h
  exact ⟨taken, htaken, hplain.separator, iff_of_false hplain.member hrooted⟩

theorem TakesPlain.trans {rooted : Prop} (h : TakesPlain input between) (h' : Takes rooted between after)
    : Takes rooted input after := by
  obtain ⟨taken, htaken, hplain⟩ := h
  obtain ⟨more, hmore, hseparator, hmember⟩ := h'
  refine ⟨taken ++ more, ?_, List.forall_mem_append.2 ⟨hplain.separator, hseparator⟩, ?_⟩
  . rw [htaken, hmore, List.append_assoc]
  . rw [hasRootedMember_append, hmember, or_iff_right hplain.member]

theorem takesPlain_of_anyName {name : Name} (h : anyName input = .ok (name, after))
    : TakesPlain input after := by
  obtain ⟨trees, bounded, closing, surplus⟩ := input
  match trees with
  | .ident text l :: rest =>
    cases h
    exact ⟨[.ident text l], rfl, .ident text l⟩
  | [] | .punct .. :: _ | .literal .. :: _ | .lifetime .. :: _ | .group .. :: _ => cases h

theorem takesPlain_of_rename (h : rename input = .ok ((), after)) : TakesPlain input after := by
  obtain ⟨trees, bounded, closing, surplus⟩ := input
  match trees with
  | .ident name l :: rest =>
    obtain ⟨found, between, hfound, h⟩ := run_bind_eq_ok_iff.1 h
    cases hfound
    split at h
    . cases h
      exact ⟨[.ident name l], rfl, .ident name l⟩
    . exact absurd h (failHere_ne_ok _ _ _ _ _)
  | [] | .punct .. :: _ | .literal .. :: _ | .lifetime .. :: _ | .group .. :: _ => cases h

theorem takesPlain_of_keyword? {text : String} {found : Bool} (h : keyword? text input = .ok (found, after))
    : TakesPlain input after := by
  cases found with
  | true =>
    obtain ⟨l, htrees⟩ := exists_ident_of_keyword? h
    exact ⟨[.ident text l], htrees, .ident text l⟩
  | false =>
    unfold keyword? at h
    split at h
    . cases h
    . cases h
      exact .refl _

theorem takesPlain_of_punct? {text : String} {found : Bool} (h : punct? text input = .ok (found, after))
    (htext : ∀ c ∈ text.toList, c ≠ ',' ∧ c ≠ ';') : TakesPlain input after := by
  cases found with
  | true =>
    obtain ⟨marks, htrees, hmarks⟩ := exists_marks_of_punct? h
    exact ⟨marks, htrees, .marks hmarks htext⟩
  | false =>
    rw [eq_of_punct?_false h]
    exact .refl _

-- Unlike a tree of its own, a member of a group may start with colons.
def TakesMember (tree? : Option UseTree) (input after : Input n) : Prop :=
  ∃ taken, input.trees = taken ++ after.trees ∧ (∀ tree ∈ taken, ¬ IsSeparator tree)
    ∧ (tree? = none ↔ Peek.punct "::" input.trees = true ∨ HasRootedMember taken)

def ReadsMembers (p : Parser n (Option UseTree)) : Prop :=
  ∀ input tree? after, p input = .ok (tree?, after) → TakesMember tree? input after

theorem none_mem_of_loop_iff {p : Parser n (Option UseTree)} (hp : ReadsMembers p) {bound : Nat}
    {acc items? : List (Option UseTree)}
    (h : loop bound (commaSeparated.step p) acc input = .ok (items?, after))
    : none ∈ items? ↔ none ∈ acc ∨ IsRootedContent input.trees := by
  -- what the members read so far are stays in the result, so `acc` may be any list
  induction bound generalizing acc input with
  | zero => exact absurd h (failHere_ne_ok _ _ _ _ _)
  | succ bound ih =>
    rcases loop_succ_eq_ok_iff.1 h with ⟨hempty, rfl, _⟩ | ⟨_, tree?, between, htree, h⟩
    . have hnone : ¬ IsRootedContent [] := by
        rw [isRootedContent_single_iff IsPlain.nil.separator]
        exact not_or.2 ⟨nofun, IsPlain.nil.member⟩
      rw [List.isEmpty_iff.1 hempty, or_iff_left hnone, List.mem_reverse]
    . obtain ⟨taken, htaken, hseparator, hrooted⟩ := hp _ _ _ htree
      obtain ⟨state, mid, hstate, h⟩ := run_bind_eq_ok_iff.1 h
      rcases afterElement_cases hstate with ⟨hend, rfl⟩ | ⟨⟨comma, hcomma, hbetween⟩, rfl⟩
      . rw [← (run_pure_eq_ok_iff.1 h).1, List.mem_reverse, List.mem_cons, eq_comm, hrooted, htaken, hend,
          List.append_nil, isRootedContent_single_iff hseparator, or_comm]
      . rw [ih h, List.mem_cons, eq_comm, hrooted, htaken, hbetween,
          isRootedContent_append_iff hseparator hcomma]
        tauto

theorem takes_of_group {p : Parser n (Option UseTree)} (hp : ReadsMembers p)
    {items? : Option (List UseTree)}
    (h : delimited .brace (useGroup g p) input = .ok (items?, after))
    : Takes (items? = none) input after := by
  unfold delimited at h
  split at h
  . next d opening closing content rest htrees =>
    split at h
    . next hd =>
      split at h
      . contradiction
      . next found inner hinner =>
        cases h
        cases hd
        obtain ⟨items?, between, hloop, hitems⟩ := run_bind_eq_ok_iff.1 hinner
        obtain ⟨rfl, _⟩ := run_pure_eq_ok_iff.1 hitems
        refine ⟨[.group .brace opening closing content], ?_, by simp [IsSeparator, IsMark], ?_⟩
        . simp [htrees]
        . rw [hasRootedMember_group_iff, mapM_id_eq_none_iff, none_mem_of_loop_iff hp hloop]
          simp
    . contradiction
  . exact absurd h (failHere_ne_ok _ _ _ _ _)

theorem useMember_readsMembers {fuel : Nat} {allowRoot : Bool}
    (ih : ∀ {allowRoot input tree? after}, useTree g fuel allowRoot input = .ok (tree?, after) →
      Takes (tree? = none) input after)
    : ReadsMembers (useMember g fuel allowRoot) := by
  intro input tree? after h
  have hplain (hcolons : Peek.punct "::" input.trees = false)
      (htree : useTree g fuel allowRoot input = .ok (tree?, after)) : TakesMember tree? input after := by
    obtain ⟨taken, htaken, hseparator, hrooted⟩ := ih htree
    exact ⟨taken, htaken, hseparator, by simp [hcolons, hrooted]⟩
  cases allowRoot with
  | false =>
    refine hplain ?_ h
    rw [← Bool.not_eq_true]
    exact fun hcolons => useTree_ne_ok_of_colons g hcolons h
  | true =>
    obtain ⟨rooted, between, hpunct, hrest⟩ := run_bind_eq_ok_iff.1 h
    cases rooted with
    | false =>
      cases eq_of_punct?_false hpunct
      exact hplain (punct_of_punct? hpunct) hrest
    -- a member with colons is `none`, whatever comes after them
    | true =>
      obtain ⟨tree?, _, htree, hnone⟩ := run_bind_eq_ok_iff.1 hrest
      obtain ⟨rfl, rfl⟩ := run_pure_eq_ok_iff.1 hnone
      obtain ⟨taken, htaken, hseparator, _⟩ := (takesPlain_of_punct? hpunct (by simp)).trans (ih htree)
      exact ⟨taken, htaken, hseparator, by simp [punct_of_punct? hpunct]⟩

theorem useTree_takes (fuel : Nat) (allowRoot : Bool) {tree? : Option UseTree}
    (h : useTree g fuel allowRoot input = .ok (tree?, after)) : Takes (tree? = none) input after := by
  induction fuel generalizing allowRoot input tree? after with
  | zero => exact absurd h (failHere_ne_ok _ _ _ _ _)
  | succ fuel ih =>
    unfold useTree at h
    obtain ⟨start, _, hstart, h⟩ := run_bind_eq_ok_iff.1 h
    cases hstart
    obtain ⟨isName, _, hname, h⟩ := run_bind_eq_ok_iff.1 h
    cases hname
    split at h
    . obtain ⟨name, _, hname, h⟩ := run_bind_eq_ok_iff.1 h
      obtain ⟨colons, _, hcolons, h⟩ := run_bind_eq_ok_iff.1 h
      refine (takesPlain_of_anyName hname).trans ((takesPlain_of_punct? hcolons (by simp)).trans ?_)
      split at h
      . obtain ⟨rest?, _, hrest, h⟩ := run_bind_eq_ok_iff.1 h
        obtain ⟨rfl, rfl⟩ := run_pure_eq_ok_iff.1 h
        rw [Option.map_eq_none_iff]
        exact ih false hrest
      . obtain ⟨isRenamed, _, hrenamed, h⟩ := run_bind_eq_ok_iff.1 h
        refine (takesPlain_of_keyword? hrenamed).trans ?_
        split at h
        . obtain ⟨_, _, hrename, h⟩ := run_bind_eq_ok_iff.1 h
          obtain ⟨rfl, rfl⟩ := run_pure_eq_ok_iff.1 h
          exact (takesPlain_of_rename hrename).takes (Option.some_ne_none _)
        . obtain ⟨rfl, rfl⟩ := run_pure_eq_ok_iff.1 h
          exact (TakesPlain.refl _).takes (Option.some_ne_none _)
    . obtain ⟨isStar, _, hstar, h⟩ := run_bind_eq_ok_iff.1 h
      refine (takesPlain_of_punct? hstar (by simp)).trans ?_
      split at h
      . obtain ⟨rfl, rfl⟩ := run_pure_eq_ok_iff.1 h
        exact (TakesPlain.refl _).takes (Option.some_ne_none _)
      . obtain ⟨isGroup, _, hgroup, h⟩ := run_bind_eq_ok_iff.1 h
        cases hgroup
        split at h
        . obtain ⟨items?, _, hitems, h⟩ := run_bind_eq_ok_iff.1 h
          obtain ⟨rfl, rfl⟩ := run_pure_eq_ok_iff.1 h
          rw [Option.map_eq_none_iff]
          exact takes_of_group g (useMember_readsMembers g (ih _)) hitems
        . exact absurd h (failHere_ne_ok _ _ _ _ _)

-- The tokens of a declaration between its keyword and the first semicolon after it.
structure Declares (declared : List TokenTree) (input after : Input n) : Prop where
  trees : ∃ keyword semicolon, input.trees = .ident "use" keyword :: (declared ++ semicolon :: after.trees)
    ∧ IsMark ';' semicolon
  semicolon : ∀ tree ∈ declared, ¬ IsMark ';' tree

theorem useDeclaration_declares {declaration? : Option (Tree n)}
    (h : useDeclaration g input = .ok (declaration?, after))
    : ∃ declared, Declares declared input after ∧ (declaration? = none ↔ HasRootedMember declared) := by
  obtain ⟨_, start, hkeyword, h⟩ := run_bind_eq_ok_iff.1 h
  obtain ⟨rooted, between, hcolons, h⟩ := run_bind_eq_ok_iff.1 h
  obtain ⟨tree?, mid, htree, h⟩ := run_bind_eq_ok_iff.1 h
  obtain ⟨_, last, hsemicolon, h⟩ := run_bind_eq_ok_iff.1 h
  obtain ⟨rfl, rfl⟩ := run_pure_eq_ok_iff.1 h
  obtain ⟨l, hinput⟩ := exists_ident_of_keyword hkeyword
  obtain ⟨declared, hdeclared, hseparator, hrooted⟩
    := (takesPlain_of_punct? hcolons (by simp)).trans (useTree_takes g _ _ htree)
  obtain ⟨marks, hmid, hmarks⟩ := exists_marks_of_punct hsemicolon
  obtain _ | ⟨hmark, ⟨⟩⟩ : List.Forall₂ IsMark [';'] marks := hmarks
  refine ⟨declared, ⟨⟨l, _, ?_, hmark⟩, ?_⟩, ?_⟩
  . rw [hinput, hdeclared, hmid, List.singleton_append]
  . exact fun tree hmem hmark => hseparator tree hmem (.inr hmark)
  . rw [Option.map_eq_none_iff, hrooted]

end Grammar

end PatternLint.Syntax
