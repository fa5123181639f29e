import Mathlib.Data.List.TakeWhile
import PatternLint.Path
import PatternLint.Proofs.Text.Raw

/-!
This module contains the laws of paths: what the components of a path are after a name is added to
it, and of the directory that a path stands in.
-/

namespace PatternLint

namespace Path

open Text

/-- A text that entries of directories can have for a name. -/
structure IsName (name : RawText) : Prop where
  ne_empty : name ≠ ""
  ne_dot : name ≠ "."
  ne_dots : name ≠ ".."
  no_slash : slash ∉ name.toList

theorem isName_iff {name : RawText}
    : IsName name ↔ name ≠ "" ∧ name ≠ "." ∧ name ≠ ".." ∧ slash ∉ name.toList := by
  constructor
  . rintro ⟨hempty, hdot, hdots, hslash⟩
    exact ⟨hempty, hdot, hdots, hslash⟩
  . rintro ⟨hempty, hdot, hdots, hslash⟩
    exact ⟨hempty, hdot, hdots, hslash⟩

instance (name : RawText) : Decidable (IsName name) :=
  decidable_of_iff' _ isName_iff

@[simp]
theorem componentOfPart?_nil : componentOfPart? [] = none := by
  rfl

theorem componentOfPart?_of_ne {name : RawText} (hempty : name ≠ "") (hdot : name ≠ ".")
    (hdots : name ≠ "..") : componentOfPart? name.toList = some (.normal name) := by
  unfold Path.componentOfPart?
  split
  . next h => exact absurd (RawText.toList_inj.1 h) hempty
  . next h => exact absurd (RawText.toList_inj.1 h) hdot
  . next h => exact absurd (RawText.toList_inj.1 h) hdots
  . rfl

theorem IsName.componentOfPart? {name : RawText} (h : IsName name)
    : componentOfPart? name.toList = some (.normal name) :=
  componentOfPart?_of_ne h.ne_empty h.ne_dot h.ne_dots

def splitPieces : List (List UInt8) → Anchor × List (List UInt8)
  | [] :: part :: parts => (.root, part :: parts)
  | [dot] :: parts => (.current, parts)
  | parts => (.nothing, parts)

theorem split_eq (p : Path) : p.split = splitPieces (splitAt slash p.text.toList) := by
  rfl

def componentsOfParts (split : Anchor × List (List UInt8)) : List Component :=
  split.1.components ++ split.2.filterMap componentOfPart?

theorem components_eq (p : Path)
    : p.components = componentsOfParts (splitPieces (splitAt slash p.text.toList)) := by
  rfl

theorem splitPieces_append {pieces : List (List UInt8)} (hne : pieces ≠ []) (hempty : pieces ≠ [[]])
    (others : List (List UInt8))
    : splitPieces (pieces ++ others)
        =
      ((splitPieces pieces).1, (splitPieces pieces).2 ++ others) := by
  cases pieces with
  | nil => contradiction
  | cons piece parts =>
    cases piece with
    | nil =>
      cases parts with
      | nil => contradiction
      | cons part parts => rfl
    | cons c cs =>
      unfold splitPieces
      split
      . next h => simp at h
      . next h =>
        simp only [List.cons_append, List.cons.injEq] at h
        obtain ⟨⟨rfl, rfl⟩, rfl⟩ := h
        rfl
      . next hdot =>
        split
        . next h => simp at h
        . next h =>
          simp only [List.cons.injEq] at h
          obtain ⟨⟨rfl, rfl⟩, rfl⟩ := h
          exact absurd rfl (hdot _)
        . rfl

theorem componentsOfParts_append {pieces : List (List UInt8)} (hne : pieces ≠ [])
    (hempty : pieces ≠ [[]]) (others : List (List UInt8))
    : componentsOfParts (splitPieces (pieces ++ others))
        =
      componentsOfParts (splitPieces pieces) ++ others.filterMap componentOfPart? := by
  rw [splitPieces_append hne hempty]
  simp [componentsOfParts]

theorem componentsOfParts_snoc {pieces : List (List UInt8)} (hne : pieces ≠ []) (part : List UInt8)
    : componentsOfParts (splitPieces (pieces ++ [part]))
        =
      componentsOfParts (splitPieces (pieces ++ [[]])) ++ (componentOfPart? part).toList := by
  by_cases hempty : pieces = [[]]
  . rw [hempty]
    cases hpart : componentOfPart? part with
    | none => simp [splitPieces, componentsOfParts, hpart]
    | some component => simp [splitPieces, componentsOfParts, hpart]
  . rw [componentsOfParts_append hne hempty, componentsOfParts_append hne hempty]
    cases hpart : componentOfPart? part with
    | none => simp [hpart]
    | some component => simp [hpart]

theorem splitAt_ne_empty_piece {cs : List UInt8} (h : cs ≠ []) : splitAt slash cs ≠ [[]] := by
  intro hpieces
  have := intercalate_splitAt slash cs
  rw [hpieces] at this
  exact h this.symm

theorem components_name {name : RawText} (h : IsName name)
    : components ⟨name⟩ = [.normal name] := by
  have hdot : name.toList ≠ [dot] := by
    intro heq
    exact h.ne_dot (RawText.toList_inj.1 heq)
  rw [components_eq]
  dsimp
  rw [splitAt_eq_singleton h.no_slash]
  unfold splitPieces
  split
  . next heq => simp at heq
  . next heq =>
    simp only [List.cons.injEq] at heq
    exact absurd heq.1 hdot
  . simp [componentsOfParts, Anchor.components, h.componentOfPart?]

theorem components_slash_append (cs ds : List UInt8)
    : components ⟨.ofList (cs ++ slash :: ds)⟩
        =
      components ⟨.ofList (cs ++ [slash])⟩ ++ (splitAt slash ds).filterMap componentOfPart? := by
  rw [components_eq, components_eq]
  dsimp
  rw [splitAt_append, splitAt_append]
  by_cases hempty : splitAt slash cs = [[]]
  . rw [hempty]
    cases hpieces : splitAt slash ds with
    | nil => exact absurd hpieces (splitAt_ne_nil slash ds)
    | cons piece pieces => simp [splitPieces, componentsOfParts, splitAt]
  . have hne := splitAt_ne_nil slash cs
    rw [componentsOfParts_append hne hempty, componentsOfParts_append hne hempty]
    simp [splitAt]

theorem components_slash {cs : List UInt8} (h : cs ≠ [])
    : components ⟨.ofList (cs ++ [slash])⟩ = components ⟨.ofList cs⟩ := by
  rw [components_eq, components_eq]
  dsimp
  rw [splitAt_append, componentsOfParts_append]
  . simp [splitAt]
  . apply splitAt_ne_nil
  . exact splitAt_ne_empty_piece h

theorem IsName.isAbsolute {name : RawText} (h : IsName name) : isAbsolute ⟨name⟩ = false := by
  unfold Path.isAbsolute
  rw [decide_eq_false_iff_not]
  intro hhead
  exact h.no_slash (List.mem_of_mem_head? hhead)

theorem eq_ofList {p : Path} {cs : List UInt8} (h : p.text.toList = cs)
    : p = ⟨.ofList cs⟩ := by
  rw [← h]

theorem components_join_relative {p q : Path} (hp : p.text ≠ "") (hq : q.isAbsolute = false)
    : (p.join q).components
        =
      p.components ++ (splitAt slash q.text.toList).filterMap componentOfPart? := by
  unfold join
  rw [hq, if_neg (by simp)]
  by_cases hslash : p.text.toList.getLast? = some slash
  . obtain ⟨cs, hcs⟩ := List.getLast?_eq_some_iff.1 hslash
    rw [if_pos (by simp [hslash])]
    have hjoin : (⟨p.text ++ q.text⟩ : Path).text.toList = cs ++ slash :: q.text.toList := by
      simp [hcs]
    rw [eq_ofList hjoin, eq_ofList hcs, components_slash_append]
  . have hcs : p.text.toList ≠ [] := by
      intro hnil
      exact hp (RawText.eq_empty_of_toList hnil)
    rw [if_neg (by simp [hp, hslash])]
    have hjoin : (⟨p.text ++ "/" ++ q.text⟩ : Path).text.toList
        = p.text.toList ++ slash :: q.text.toList := by
      simp
    rw [eq_ofList hjoin, components_slash_append, components_slash hcs]

@[simp]
theorem components_join {p : Path} {name : RawText} (h : IsName name)
    : (p.join ⟨name⟩).components = p.components ++ [.normal name] := by
  by_cases hempty : p.text = ""
  . have hnone : p.components = [] := by
      rw [components_eq, hempty]
      rfl
    unfold join
    rw [h.isAbsolute, if_neg (by simp), hempty, if_pos (by simp), hnone]
    exact components_name h
  . rw [components_join_relative hempty h.isAbsolute, splitAt_eq_singleton h.no_slash,
      List.filterMap_cons_some h.componentOfPart?, List.filterMap_nil]

theorem fileName?_eq_some {p : Path} {before : List Component} {name : RawText}
    (h : p.components = before ++ [.normal name]) : p.fileName? = some name := by
  unfold fileName?
  rw [h, List.getLast?_concat]

section Parent

theorem dropIdleEnd_append (parts : List (List UInt8))
    : ∃ idle, parts = dropIdleEnd parts ++ idle ∧ ∀ part ∈ idle, componentOfPart? part = none := by
  refine ⟨(parts.reverse.takeWhile isIdle).reverse, ?_, ?_⟩
  . unfold dropIdleEnd
    rw [← List.reverse_append, List.takeWhile_append_dropWhile, List.reverse_reverse]
  . intro part hpart
    rw [List.mem_reverse] at hpart
    have := List.mem_takeWhile_imp hpart
    simpa [isIdle] using this

theorem filterMap_dropIdleEnd (parts : List (List UInt8))
    : (dropIdleEnd parts).filterMap componentOfPart? = parts.filterMap componentOfPart? := by
  obtain ⟨idle, hparts, hidle⟩ := dropIdleEnd_append parts
  have hnone : idle.filterMap componentOfPart? = [] := List.filterMap_eq_nil_iff.2 hidle
  conv => rhs; rw [hparts, List.filterMap_append, hnone, List.append_nil]

theorem componentOfPart?_last {parts before : List (List UInt8)} {last : List UInt8}
    (h : (dropIdleEnd parts).reverse = last :: before) : (componentOfPart? last).isSome := by
  unfold dropIdleEnd at h
  rw [List.reverse_reverse] at h
  have := List.head?_dropWhile_not isIdle parts.reverse
  rw [h] at this
  simpa [isIdle] using this

structure AreParts (anchor : Anchor) (parts : List (List UInt8)) : Prop where
  no_slash : ∀ part ∈ parts, slash ∉ part
  first : anchor = .nothing → ∀ part ∈ parts.head?, part ≠ [] ∧ part ≠ [dot]

theorem splitAt_joinParts {parts : List (List UInt8)} (h : ∀ part ∈ parts, slash ∉ part)
    : splitAt slash (joinParts parts).toList = if parts = [] then [[]] else parts := by
  unfold joinParts
  split
  . next hnil =>
    rw [hnil]
    rfl
  . next hne => exact splitAt_intercalate hne h

theorem components_ofParts {anchor : Anchor} {parts : List (List UInt8)} (h : AreParts anchor parts)
    : (ofParts anchor parts).components = componentsOfParts (anchor, parts) := by
  have hjoin := splitAt_joinParts h.no_slash
  rw [components_eq]
  cases anchor with
  | root =>
    unfold ofParts
    dsimp only
    have htext : ("/" ++ joinParts parts).toList = [] ++ slash :: (joinParts parts).toList := by
      simp
    rw [htext, splitAt_append, hjoin]
    cases parts <;> rfl
  | current =>
    unfold ofParts
    cases parts with
    | nil => rfl
    | cons part parts =>
      dsimp only
      have htext : ("./" ++ joinParts (part :: parts)).toList
          = [dot] ++ slash :: (joinParts (part :: parts)).toList := by
        simp
      rw [if_neg (by simp), htext, splitAt_append, hjoin]
      rfl
  | nothing =>
    unfold ofParts
    dsimp
    rw [hjoin]
    cases parts with
    | nil => rfl
    | cons part parts =>
      obtain ⟨hne, hdot⟩ := h.first rfl part rfl
      rw [if_neg (by simp)]
      congr 1
      unfold splitPieces
      split
      . next heq =>
        simp only [List.cons.injEq] at heq
        exact absurd heq.1 hne
      . next heq =>
        simp only [List.cons.injEq] at heq
        exact absurd heq.1 hdot
      . rfl

theorem mem_splitAt_of_mem_split {p : Path} {part : List UInt8} (h : part ∈ p.split.2)
    : part ∈ splitAt slash p.text.toList := by
  rw [split_eq] at h
  generalize splitAt slash p.text.toList = pieces at h ⊢
  unfold splitPieces at h
  split at h
  . exact List.mem_cons_of_mem _ h
  . exact List.mem_cons_of_mem _ h
  . exact h

theorem no_slash_split {p : Path} {part : List UInt8} (h : part ∈ p.split.2) : slash ∉ part :=
  not_mem_of_mem_splitAt (mem_splitAt_of_mem_split h)

theorem split_nothing {p : Path} (h : p.split.1 = .nothing)
    : p.split.2 = [[]] ∨ ∀ part ∈ p.split.2.head?, part ≠ [] ∧ part ≠ [dot] := by
  rw [split_eq] at h ⊢
  generalize splitAt slash p.text.toList = pieces at h ⊢
  cases pieces with
  | nil => simp [splitPieces]
  | cons piece parts =>
    cases piece with
    | nil =>
      cases parts with
      | nil => exact .inl rfl
      | cons part parts => contradiction
    | cons c cs =>
      unfold splitPieces at h ⊢
      split at h
      . contradiction
      . contradiction
      . next hdot =>
        right
        intro part hpart
        rw [List.head?_cons, Option.mem_some] at hpart
        subst hpart
        refine ⟨by simp, ?_⟩
        intro heq
        exact hdot parts (congrArg (· :: parts) heq)

theorem areParts_dropIdleEnd {p : Path} {taken : List (List UInt8)} (h : taken <+: p.split.2)
    : AreParts p.split.1 (dropIdleEnd taken) := by
  obtain ⟨idle, htaken, hidle⟩ := dropIdleEnd_append taken
  have hkeeps : dropIdleEnd taken <+: p.split.2 := .trans ⟨idle, htaken.symm⟩ h
  constructor
  . intro part hpart
    exact no_slash_split (hkeeps.subset hpart)
  . intro hanchor part hpart
    obtain ⟨others, hothers⟩ := hkeeps
    cases hkept : dropIdleEnd taken with
    | nil => simp [hkept] at hpart
    | cons first rest =>
      rw [hkept] at hpart hothers
      rcases split_nothing hanchor with hempty | hfirst
      . -- the only part is empty, and it is left out
        rw [hempty] at hothers h
        have hempty : dropIdleEnd taken = [] := by
          rcases List.prefix_cons_iff.1 h with rfl | ⟨others, rfl, hothers⟩
          . rfl
          . rw [List.prefix_nil.1 hothers]
            rfl
        rw [hempty] at hkept
        contradiction
      . apply hfirst
        rw [← hothers]
        exact hpart

theorem components_parent? {p : Path} {before : List Component} {name : RawText}
    (h : p.components = before ++ [.normal name])
    : ∃ q, p.parent? = some q ∧ q.components = before := by
  have hcomponents : p.components
      = p.split.1.components ++ (dropIdleEnd p.split.2).filterMap componentOfPart? := by
    rw [filterMap_dropIdleEnd]
    rfl
  have hidle : dropIdleEnd p.split.2 <+: p.split.2 := by
    obtain ⟨idle, hparts, _⟩ := dropIdleEnd_append p.split.2
    exact ⟨idle, hparts.symm⟩
  unfold parent?
  dsimp
  split
  . next hnil =>
    -- without parts, the last component would be the start of the path
    rw [List.reverse_eq_nil_iff.1 hnil, List.filterMap_nil, List.append_nil, h] at hcomponents
    have := congrArg List.getLast? hcomponents
    rw [List.getLast?_concat] at this
    cases hanchor : p.split.1 <;> simp [hanchor, Anchor.components] at this
  . next last others hlast =>
    have hkept : dropIdleEnd p.split.2 = others.reverse ++ [last] := by
      rw [← List.reverse_reverse (dropIdleEnd p.split.2), hlast, List.reverse_cons]
    obtain ⟨component, hcomponent⟩ := Option.isSome_iff_exists.1 (componentOfPart?_last hlast)
    have hparts : AreParts p.split.1 (dropIdleEnd others.reverse) := by
      apply areParts_dropIdleEnd
      exact .trans ⟨[last], hkept.symm⟩ hidle
    refine ⟨_, rfl, ?_⟩
    rw [components_ofParts hparts]
    unfold componentsOfParts
    dsimp
    rw [hkept, List.filterMap_append, List.filterMap_cons_some hcomponent, List.filterMap_nil,
      ← List.append_assoc, h] at hcomponents
    rw [filterMap_dropIdleEnd]
    exact (List.append_inj_left' hcomponents rfl).symm

end Parent

section Prefix

theorem dropComponents_idle {part : List UInt8} (h : isIdle part = true) (count : Nat) (parts : List (List UInt8))
    : dropComponents count (part :: parts) = dropComponents count parts := by
  rw [dropComponents.eq_def]
  simp [h]

theorem dropComponents_zero {part : List UInt8} (h : isIdle part = false) (parts : List (List UInt8))
    : dropComponents 0 (part :: parts) = part :: parts := by
  rw [dropComponents.eq_def]
  simp [h]

theorem dropComponents_succ {part : List UInt8} (h : isIdle part = false) (count : Nat)
    (parts : List (List UInt8)) : dropComponents (count + 1) (part :: parts) = dropComponents count parts := by
  rw [dropComponents.eq_def]
  simp [h]

theorem filterMap_dropComponents (count : Nat) (parts : List (List UInt8))
    : (dropComponents count parts).filterMap componentOfPart?
        =
      (parts.filterMap componentOfPart?).drop count := by
  induction parts generalizing count with
  | nil => simp [dropComponents]
  | cons part parts ih =>
    cases hidle : isIdle part with
    | true => rw [dropComponents_idle hidle, ih, List.filterMap_cons_none (by simpa [isIdle] using hidle)]
    | false =>
      obtain ⟨component, hcomponent⟩ : ∃ component, componentOfPart? part = some component := by
        rw [← Option.isSome_iff_exists]
        simpa [isIdle] using hidle
      cases count with
      | zero => rw [dropComponents_zero hidle, List.drop_zero]
      | succ count =>
        rw [dropComponents_succ hidle, ih, List.filterMap_cons_some hcomponent, List.drop_succ_cons]

theorem dropComponents_suffix (count : Nat) (parts : List (List UInt8))
    : dropComponents count parts <:+ parts := by
  induction parts generalizing count with
  | nil => simp [dropComponents]
  | cons part parts ih =>
    cases hidle : isIdle part with
    | true =>
      rw [dropComponents_idle hidle]
      exact (ih count).trans (List.suffix_cons part parts)
    | false =>
      cases count with
      | zero =>
        exact ⟨[], by rw [dropComponents_zero hidle, List.nil_append]⟩
      | succ count =>
        rw [dropComponents_succ hidle]
        exact (ih count).trans (List.suffix_cons part parts)

theorem isIdle_head_dropComponents {count : Nat} {parts : List (List UInt8)} {part : List UInt8}
    (h : (dropComponents count parts).head? = some part) : isIdle part = false := by
  induction parts generalizing count with
  | nil => simp [dropComponents] at h
  | cons first parts ih =>
    cases hidle : isIdle first with
    | true =>
      rw [dropComponents_idle hidle] at h
      exact ih h
    | false =>
      cases count with
      | zero =>
        rw [dropComponents_zero hidle] at h
        cases h
        exact hidle
      | succ count =>
        rw [dropComponents_succ hidle] at h
        exact ih h

theorem isAbsolute_joinParts {parts : List (List UInt8)} (hslash : ∀ part ∈ parts, slash ∉ part)
    (hfirst : ∀ part, parts.head? = some part → isIdle part = false)
    : isAbsolute ⟨joinParts parts⟩ = false := by
  have hpieces := splitAt_joinParts hslash
  unfold isAbsolute
  rw [decide_eq_false_iff_not]
  intro hhead
  obtain ⟨cs, hcs⟩ := List.head?_eq_some_iff.1 hhead
  rw [hcs, splitAt, if_pos rfl] at hpieces
  cases parts with
  | nil =>
    rw [if_pos rfl] at hpieces
    exact splitAt_ne_nil slash cs (List.cons.inj hpieces).2
  | cons part parts =>
    -- the first part would be empty
    rw [if_neg (by simp)] at hpieces
    have hidle := hfirst part rfl
    rw [← (List.cons.inj hpieces).1] at hidle
    contradiction

theorem exists_split_of_isAbsolute {p : Path} (h : p.isAbsolute = true)
    : ∃ parts, p.split = (.root, parts) ∧ (∀ part ∈ parts, slash ∉ part)
        ∧ p.components = .root :: parts.filterMap componentOfPart? := by
  unfold isAbsolute at h
  rw [decide_eq_true_iff] at h
  obtain ⟨cs, hcs⟩ := List.head?_eq_some_iff.1 h
  have hsplit : p.split = (.root, splitAt slash cs) := by
    rw [split_eq, hcs, splitAt, if_pos rfl]
    cases hpieces : splitAt slash cs with
    | nil => exact absurd hpieces (splitAt_ne_nil slash cs)
    | cons piece pieces => rfl
  refine ⟨_, hsplit, fun _ => not_mem_of_mem_splitAt, ?_⟩
  unfold components
  rw [hsplit]
  rfl

theorem exists_stripPrefix?_eq_some {p q : Path} (hp : p.isAbsolute = true) (hq : q.isAbsolute = true)
    (h : p.components <+: q.components)
    : ∃ rest, p.stripPrefix? q = some rest ∧ rest.isAbsolute = false
        ∧ (p.join rest).components = q.components := by
  obtain ⟨before, _, _, hbefore⟩ := exists_split_of_isAbsolute hp
  obtain ⟨parts, hsplit, hslash, hcomponents⟩ := exists_split_of_isAbsolute hq
  obtain ⟨count, hcount⟩ : ∃ count, p.components.length = count + 1 := by
    rw [hbefore]
    exact ⟨_, rfl⟩
  have hdropped := dropComponents_suffix count (dropIdleEnd parts)
  obtain ⟨idle, hidle, _⟩ := dropIdleEnd_append parts
  have hslash : ∀ part ∈ dropComponents count (dropIdleEnd parts), slash ∉ part := by
    intro part hpart
    apply hslash
    rw [hidle]
    exact List.mem_append_left _ (hdropped.subset hpart)
  have habsolute := isAbsolute_joinParts hslash fun _ => isIdle_head_dropComponents
  refine ⟨⟨joinParts (dropComponents count (dropIdleEnd parts))⟩, ?_, habsolute, ?_⟩
  . unfold stripPrefix?
    rw [if_pos (List.isPrefixOf_iff_prefix.2 h), hcount, hsplit]
    rfl
  . have hempty : p.text ≠ "" := by
      intro hempty
      unfold isAbsolute at hp
      rw [hempty] at hp
      contradiction
    have hrest : (splitAt slash (joinParts (dropComponents count (dropIdleEnd parts))).toList).filterMap
        componentOfPart? = (parts.filterMap componentOfPart?).drop count := by
      rw [splitAt_joinParts hslash]
      split
      . next hnil =>
        rw [← filterMap_dropIdleEnd parts, ← filterMap_dropComponents, hnil]
        rfl
      . rw [filterMap_dropComponents, filterMap_dropIdleEnd]
    rw [components_join_relative hempty habsolute, hrest]
    obtain ⟨others, hothers⟩ := h
    have hdrop : (parts.filterMap componentOfPart?).drop count = q.components.drop p.components.length := by
      rw [hcomponents, hcount, List.drop_succ_cons]
    rw [hdrop, ← hothers, List.drop_left]

theorem isText_joinParts {parts : List (List UInt8)} (h : ∀ part ∈ parts, RawText.IsText (.ofList part))
    : (joinParts parts).IsText := by
  induction parts with
  | nil => exact ⟨"", rfl⟩
  | cons part parts ih =>
    rw [List.forall_mem_cons] at h
    cases parts with
    | nil =>
      unfold joinParts
      rw [List.intercalate_singleton]
      exact h.1
    | cons next parts =>
      have hjoin : joinParts (part :: next :: parts) = .ofList part ++ ("/" ++ joinParts (next :: parts)) := by
        apply RawText.toList_inj.1
        simp [joinParts]
      rw [hjoin]
      exact h.1.append (.append ⟨"/", rfl⟩ (ih h.2))

theorem isText_of_stripPrefix? {p q rest : Path} (hq : q.isAbsolute = true) (htext : q.text.IsText)
    (h : p.stripPrefix? q = some rest) : rest.text.IsText := by
  have hparts (part : List UInt8) (hpart : part ∈ dropIdleEnd q.split.2) : RawText.IsText (.ofList part) := by
    obtain ⟨idle, hidle, _⟩ := dropIdleEnd_append q.split.2
    have hpart : part ∈ q.split.2 := by
      rw [hidle]
      exact List.mem_append_left _ hpart
    have hsep : '/'.toNat = slash.toNat := rfl
    exact htext.of_mem_splitAt (by decide) hsep (mem_splitAt_of_mem_split hpart)
  obtain ⟨parts, hsplit, _⟩ := exists_split_of_isAbsolute hq
  unfold stripPrefix? at h
  rw [hsplit] at h hparts
  dsimp only at h hparts
  split at h
  . split at h
    . cases h
      exact .append ⟨"/", rfl⟩ (isText_joinParts hparts)
    . cases h
      apply isText_joinParts
      intro part hpart
      exact hparts part ((dropComponents_suffix _ _).subset hpart)
  . contradiction

theorem stripPrefix?_eq_none {p q : Path} (h : ¬ p.components <+: q.components) : p.stripPrefix? q = none := by
  unfold stripPrefix?
  rw [if_neg (by rwa [List.isPrefixOf_iff_prefix])]

end Prefix

end Path

end PatternLint
