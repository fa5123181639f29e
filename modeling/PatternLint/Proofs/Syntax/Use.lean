import PatternLint.Proofs.Except
import PatternLint.Syntax.Grammar.Use

/-!
This module contains the law of the start of `use` declarations: two colons after the keyword only tell
where a path begins to be looked up, so what is imported is read the same with and without them.
-/

namespace PatternLint.Syntax

namespace Input

variable {n : Nat}

@[simp]
theorem trees_drop (count : Nat) (input : Input n) : (input.drop count).trees = input.trees.drop count := by
  rfl

theorem eq_of_trees {a b : Input n} (htrees : a.trees = b.trees) (hclosing : a.closing = b.closing)
    (hsurplus : a.surplus = b.surplus) : a = b := by
  cases a
  cases b
  cases htrees
  cases hclosing
  cases hsurplus
  rfl

end Input

def IsMark (c : Char) (tree : TokenTree) : Prop :=
  ∃ joint l, tree = .punct c joint l

theorem Peek.exists_marks_of_go {cs : List Char} {trees : List TokenTree}
    (h : Peek.punct.go cs trees = true)
    : ∃ marks, trees = marks ++ trees.drop cs.length ∧ List.Forall₂ IsMark cs marks := by
  induction cs generalizing trees with
  | nil => exact ⟨[], rfl, .nil⟩
  | cons c cs ih =>
    obtain ⟨d, joint, l, rest, rfl⟩ : ∃ d joint l rest, trees = .punct d joint l :: rest := by
      unfold Peek.punct.go at h
      grind
    have hrest : c = d ∧ Peek.punct.go cs rest = true := by
      cases cs <;> simp_all [Peek.punct.go]
    obtain ⟨marks, htrees, hmarks⟩ := ih hrest.2
    refine ⟨.punct d joint l :: marks, ?_, .cons ⟨joint, l, by rw [hrest.1]⟩ hmarks⟩
    rw [List.length_cons, List.drop_succ_cons, List.cons_append, ← htrees]

theorem Peek.exists_marks {text : String} {trees : List TokenTree} (h : Peek.punct text trees = true)
    : ∃ marks, trees = marks ++ trees.drop text.length ∧ List.Forall₂ IsMark text.toList marks := by
  rw [← String.length_toList]
  exact exists_marks_of_go h

namespace Parser

variable {n : Nat} {α β : Type}

theorem run_bind (x : Parser n α) (f : α → Parser n β) (input : Input n)
    : (x >>= f) input = x input >>= fun result => f result.1 result.2 := by
  rfl

theorem run_bind_of_ok {x : Parser n α} {f : α → Parser n β} {input between : Input n} {a : α}
    (h : x input = .ok (a, between)) : (x >>= f) input = f a between := by
  rw [run_bind, h]
  rfl

theorem run_bind_eq_ok_iff {x : Parser n α} {f : α → Parser n β} {input after : Input n} {b : β}
    : (x >>= f) input = .ok (b, after)
        ↔
      ∃ a between, x input = .ok (a, between) ∧ f a between = .ok (b, after) := by
  rw [run_bind, bind_eq_ok_iff, Prod.exists]

theorem run_pure_eq_ok_iff {a b : α} {input after : Input n}
    : (pure a : Parser n α) input = .ok (b, after) ↔ a = b ∧ input = after := by
  show Except.ok (a, input) = _ ↔ _
  simp

theorem failHere_ne_ok (before atEnd : SyntaxError.Cause) (input after : Input n) (a : α)
    : failHere before atEnd input ≠ .ok (a, after) := by
  unfold failHere
  split <;> exact nofun

theorem punct?_eq (text : String) (input : Input n)
    : punct? text input
        =
      if Peek.punct text input.trees then .ok (true, input.drop text.length) else .ok (false, input) := by
  rfl

theorem punct_of_punct? {text : String} {found : Bool} {input after : Input n}
    (h : punct? text input = .ok (found, after)) : Peek.punct text input.trees = found := by
  rw [punct?_eq] at h
  split at h
  . next hpunct =>
    cases h
    exact hpunct
  . next hpunct =>
    cases h
    simpa using hpunct

theorem eq_of_punct?_false {text : String} {input after : Input n}
    (h : punct? text input = .ok (false, after)) : after = input := by
  rw [punct?_eq] at h
  split at h
  . cases h
  . cases h
    rfl

theorem exists_marks_of_punct? {text : String} {input after : Input n}
    (h : punct? text input = .ok (true, after))
    : ∃ marks, input.trees = marks ++ after.trees ∧ List.Forall₂ IsMark text.toList marks := by
  rw [punct?_eq] at h
  split at h
  . next hpunct =>
    cases h
    exact Peek.exists_marks hpunct
  . cases h

theorem exists_marks_of_punct {text : String} {input after : Input n} (h : punct text input = .ok ((), after))
    : ∃ marks, input.trees = marks ++ after.trees ∧ List.Forall₂ IsMark text.toList marks := by
  obtain ⟨found, between, hfound, h⟩ := run_bind_eq_ok_iff.1 h
  cases found with
  | false => exact absurd h (failHere_ne_ok _ _ _ _ _)
  | true =>
    cases h
    exact exists_marks_of_punct? hfound

theorem exists_ident_of_keyword? {text : String} {input after : Input n}
    (h : keyword? text input = .ok (true, after))
    : ∃ l, input.trees = .ident text l :: after.trees := by
  unfold keyword? at h
  split at h
  . next hkeyword =>
    cases h
    unfold Peek.keyword at hkeyword
    split at hkeyword
    . next name l rest htrees =>
      cases eq_of_beq hkeyword
      exact ⟨l, by simp [htrees]⟩
    . contradiction
  . cases h

theorem exists_ident_of_keyword {text : String} {input after : Input n}
    (h : keyword text input = .ok ((), after))
    : ∃ l, input.trees = .ident text l :: after.trees := by
  obtain ⟨found, between, hfound, h⟩ := run_bind_eq_ok_iff.1 h
  cases found with
  | false => exact absurd h (failHere_ne_ok _ _ _ _ _)
  | true =>
    cases h
    exact exists_ident_of_keyword? hfound

def Refines (p q : Parser n (Option α)) : Prop :=
  ∀ input a after, p input = .ok (some a, after) → q input = .ok (some a, after)

namespace Refines

theorem refl (p : Parser n (Option α)) : Refines p p :=
  fun _ _ _ h => h

theorem bind {x : Parser n β} {f f' : β → Parser n (Option α)} (h : ∀ b, Refines (f b) (f' b))
    : Refines (x >>= f) (x >>= f') := by
  intro input a after hfound
  obtain ⟨b, between, hx, hf⟩ := run_bind_eq_ok_iff.1 hfound
  exact run_bind_eq_ok_iff.2 ⟨b, between, hx, h b _ _ _ hf⟩

theorem bind_some {p q : Parser n (Option β)} (h : Refines p q)
    {f : Option β → Parser n (Option α)}
    (hnone : ∀ input a after, f none input ≠ .ok (some a, after)) : Refines (p >>= f) (q >>= f) := by
  intro input a after hfound
  obtain ⟨b?, between, hp, hf⟩ := run_bind_eq_ok_iff.1 hfound
  cases b? with
  | none => exact absurd hf (hnone _ _ _)
  | some b => exact run_bind_eq_ok_iff.2 ⟨some b, between, h _ _ _ hp, hf⟩

theorem delimited {p q : Parser n (Option α)} (h : Refines p q) (delimiter : Delimiter)
    : Refines (Parser.delimited delimiter p) (Parser.delimited delimiter q) := by
  intro input a after hfound
  unfold Parser.delimited at hfound ⊢
  split at hfound
  . next d opening closing content rest htrees =>
    split at hfound
    . next hd =>
      split at hfound
      . contradiction
      . next found inner hinner =>
        cases hfound
        rw [if_pos hd, h _ _ _ hinner]
    . contradiction
  . exact absurd hfound (failHere_ne_ok _ _ _ _ _)

end Refines

end Parser

namespace Grammar

open Syntax.Parser

variable {n : Nat} (g : Nested n)

section CommaSeparated

variable {α : Type} {p q : Parser n (Option α)}

def afterElement (acc : List α) (a : α) : Parser n (Step (List α) (List α)) := do
  if ← isEmpty then
    return .done (a :: acc).reverse
  punct ","
  return .next (a :: acc)

theorem step_eq (p : Parser n α) (acc : List α)
    : commaSeparated.step p acc
        =
      isEmpty >>= fun ended => if ended then pure (.done acc.reverse) else p >>= afterElement acc := by
  rfl

theorem afterElement_cases {acc : List α} {a : α} {state : Step (List α) (List α)}
    {input after : Input n} (h : afterElement acc a input = .ok (state, after))
    : input.trees = [] ∧ state = .done (a :: acc).reverse
        ∨ (∃ comma, IsMark ',' comma ∧ input.trees = comma :: after.trees)
          ∧ state = .next (a :: acc) := by
  obtain ⟨ended, between, hended, h⟩ := run_bind_eq_ok_iff.1 h
  cases hended
  split at h
  . next hempty => exact .inl ⟨List.isEmpty_iff.1 hempty, (run_pure_eq_ok_iff.1 h).1.symm⟩
  . obtain ⟨_, mid, hcomma, h⟩ := run_bind_eq_ok_iff.1 h
    obtain ⟨hstate, rfl⟩ := run_pure_eq_ok_iff.1 h
    obtain ⟨marks, hmarks, hcomma⟩ := exists_marks_of_punct hcomma
    obtain _ | ⟨hmark, ⟨⟩⟩ : List.Forall₂ IsMark [','] marks := hcomma
    exact .inr ⟨⟨_, hmark, hmarks⟩, hstate.symm⟩

def afterStep (bound : Nat) (p : Parser n α) : Step (List α) (List α) → Parser n (List α)
  | .next acc => loop bound (commaSeparated.step p) acc
  | .done result => pure result

theorem loop_succ_eq_ok_iff {p : Parser n α} {bound : Nat} {acc result : List α} {input after : Input n}
    : loop (bound + 1) (commaSeparated.step p) acc input = .ok (result, after)
        ↔
      (input.trees.isEmpty = true ∧ acc.reverse = result ∧ input = after)
        ∨ input.trees.isEmpty = false ∧ ∃ a between, p input = .ok (a, between)
          ∧ (afterElement acc a >>= afterStep bound p) between = .ok (result, after) := by
  have hloop : loop (bound + 1) (commaSeparated.step p) acc
      = commaSeparated.step p acc >>= afterStep bound p := by
    rw [loop]
    congr 1
    funext state
    cases state <;> rfl
  rw [hloop, step_eq, bind_assoc]
  change ((if input.trees.isEmpty then pure (.done acc.reverse) else p >>= afterElement acc)
    >>= afterStep bound p) input = _ ↔ _
  cases input.trees.isEmpty with
  | true =>
    rw [if_pos rfl, pure_bind, afterStep, run_pure_eq_ok_iff]
    simp
  | false =>
    rw [if_neg Bool.false_ne_true, bind_assoc, run_bind_eq_ok_iff]
    simp

theorem prefix_of_loop {bound : Nat} {acc result : List α} {p : Parser n α} {input after : Input n}
    (h : loop bound (commaSeparated.step p) acc input = .ok (result, after))
    : acc.reverse <+: result := by
  induction bound generalizing acc input with
  | zero => exact absurd h (failHere_ne_ok _ _ _ _ _)
  | succ bound ih =>
    rcases loop_succ_eq_ok_iff.1 h with ⟨_, hresult, _⟩ | ⟨_, a, between, _, h⟩
    . exact hresult ▸ List.prefix_refl _
    . obtain ⟨state, mid, hstate, h⟩ := run_bind_eq_ok_iff.1 h
      have hmore : acc.reverse <+: (a :: acc).reverse := by simp
      rcases afterElement_cases hstate with ⟨_, rfl⟩ | ⟨_, rfl⟩
      . exact (run_pure_eq_ok_iff.1 h).1 ▸ hmore
      . exact hmore.trans (ih h)

theorem loop_refines (h : Refines p q) {bound : Nat} {acc : List (Option α)} {items : List α}
    {input after : Input n}
    (hloop : loop bound (commaSeparated.step p) acc input = .ok (items.map some, after))
    : loop bound (commaSeparated.step q) acc input = .ok (items.map some, after) := by
  induction bound generalizing acc input with
  | zero => exact absurd hloop (failHere_ne_ok _ _ _ _ _)
  | succ bound ih =>
    rw [loop_succ_eq_ok_iff] at hloop ⊢
    rcases hloop with hended | ⟨hempty, a?, between, hp, hrest⟩
    . exact .inl hended
    . obtain ⟨state, mid, hstate, hrest⟩ := run_bind_eq_ok_iff.1 hrest
      have hmem : a? ∈ items.map some := by
        rcases afterElement_cases hstate with ⟨_, rfl⟩ | ⟨_, rfl⟩
        . rw [← (run_pure_eq_ok_iff.1 hrest).1]
          simp
        . apply (prefix_of_loop hrest).subset
          simp
      obtain ⟨a, _, rfl⟩ := List.mem_map.1 hmem
      refine .inr ⟨hempty, some a, between, h _ _ _ hp, run_bind_eq_ok_iff.2 ⟨state, mid, hstate, ?_⟩⟩
      rcases afterElement_cases hstate with ⟨_, rfl⟩ | ⟨_, rfl⟩
      . exact hrest
      . exact ih hrest

end CommaSeparated

theorem mapM_id_eq_some_iff {α : Type} {items? : List (Option α)} {items : List α}
    : items?.mapM id = some items ↔ items? = items.map some := by
  induction items? generalizing items with
  | nil => cases items <;> simp
  | cons item? items? ih =>
    rw [List.mapM_cons]
    cases items with
    | nil => simp [Option.bind_eq_some_iff]
    | cons item items =>
      simp only [Option.bind_eq_bind, Option.bind_eq_some_iff, ih, List.map_cons]
      grind

theorem mapM_id_eq_none_iff {α : Type} {items? : List (Option α)}
    : items?.mapM id = none ↔ none ∈ items? := by
  induction items? with
  | nil => simp
  | cons item? items? ih =>
    cases item? with
    | none => simp
    | some item =>
      rw [List.mapM_cons]
      cases hitems : items?.mapM id <;> simp_all

theorem useGroup_refines {p q : Parser n (Option UseTree)} (h : Refines p q)
    : Refines (useGroup g p) (useGroup g q) := by
  intro input items after hfound
  obtain ⟨items?, between, hloop, hitems⟩ := run_bind_eq_ok_iff.1 hfound
  obtain ⟨hsome, rfl⟩ := run_pure_eq_ok_iff.1 hitems
  cases mapM_id_eq_some_iff.1 hsome
  exact run_bind_eq_ok_iff.2 ⟨_, _, loop_refines h hloop, hitems⟩

def useMember (fuel : Nat) (allowRoot : Bool) : Parser n (Option UseTree) := do
  let rooted ← if allowRoot then punct? "::" else pure false
  if rooted then
    let _ ← useTree g fuel false
    return none
  else
    useTree g fuel allowRoot

theorem useTree_succ_refines {fuel : Nat} {allowRoot allowRoot' : Bool}
    (h : Refines (useMember g fuel allowRoot) (useMember g fuel allowRoot'))
    : Refines (useTree g (fuel + 1) allowRoot) (useTree g (fuel + 1) allowRoot') := by
  have hgroup := useGroup_refines g h
  unfold useTree
  refine .bind fun start => .bind fun isName => ?_
  split
  . exact .refl _
  . refine .bind fun isStar => ?_
    split
    . exact .refl _
    . refine .bind fun isGroup => ?_
      split
      . refine (hgroup.delimited .brace).bind_some ?_
        rintro _ _ _ ⟨⟩
      . exact .refl _

theorem exists_punct_of_colons {trees : List TokenTree} (h : Peek.punct "::" trees = true)
    : ∃ joint l rest, trees = .punct ':' joint l :: rest := by
  obtain ⟨marks, htrees, hmarks⟩ := Peek.exists_marks h
  obtain _ | ⟨⟨joint, l, rfl⟩, _⟩ : List.Forall₂ IsMark [':', ':'] marks := hmarks
  exact ⟨joint, l, _, htrees⟩

theorem useTree_ne_ok_of_colons {fuel : Nat} {allowRoot : Bool} {input after : Input n}
    {tree? : Option UseTree} (h : Peek.punct "::" input.trees = true)
    : useTree g fuel allowRoot input ≠ .ok (tree?, after) := by
  obtain ⟨trees, bounded, closing, surplus⟩ := input
  obtain ⟨joint, l, rest, rfl⟩ := exists_punct_of_colons h
  intro hfound
  cases fuel with
  | zero => cases hfound
  | succ fuel => cases hfound

theorem useMember_true_refines {fuel : Nat} (h : Refines (useTree g fuel true) (useTree g fuel false))
    : Refines (useMember g fuel true) (useMember g fuel false) := by
  intro input tree after hfound
  obtain ⟨rooted, between, hpunct, hfound⟩ := run_bind_eq_ok_iff.1 hfound
  rw [punct?_eq] at hpunct
  split at hpunct
  . -- a member that starts with two colons is not looked into
    cases hpunct
    obtain ⟨_, _, _, hnone⟩ := run_bind_eq_ok_iff.1 hfound
    cases (run_pure_eq_ok_iff.1 hnone).1
  . cases hpunct
    have hfound : useTree g fuel true input = .ok (some tree, after) := hfound
    exact h _ _ _ hfound

theorem useMember_false_refines {fuel : Nat} (h : Refines (useTree g fuel false) (useTree g fuel true))
    : Refines (useMember g fuel false) (useMember g fuel true) := by
  intro input tree after hfound
  have hfound : useTree g fuel false input = .ok (some tree, after) := hfound
  refine run_bind_eq_ok_iff.2 ⟨false, input, ?_, h _ _ _ hfound⟩
  rw [punct?_eq, if_neg]
  intro hcolons
  exact useTree_ne_ok_of_colons g hcolons hfound

theorem useTree_refines (fuel : Nat)
    : Refines (useTree g fuel true) (useTree g fuel false)
        ∧ Refines (useTree g fuel false) (useTree g fuel true) := by
  induction fuel with
  | zero => exact ⟨.refl _, .refl _⟩
  | succ fuel ih =>
    exact ⟨useTree_succ_refines g (useMember_true_refines g ih.1),
      useTree_succ_refines g (useMember_false_refines g ih.2)⟩

structure DiffersInColons (rooted plain : Input n) : Prop where
  trees : ∃ keyword first second joint rest,
    rooted.trees = .ident "use" keyword :: .punct ':' true first :: .punct ':' joint second :: rest
      ∧ plain.trees = .ident "use" keyword :: rest ∧ Peek.punct "::" rest = false
  closing : rooted.closing = plain.closing
  surplus : rooted.surplus = plain.surplus

def useAfterColons (allowRoot : Bool) : Parser n (Option (Tree n)) := do
  let tree? ← useTree g g.steps allowRoot
  punct ";"
  return tree?.map fun tree => .node (.useDeclaration tree) []

theorem useDeclaration_eq {input : Input n} {l : Location} {rest : List TokenTree}
    (h : input.trees = .ident "use" l :: rest)
    : useDeclaration g input
        =
      if Peek.punct "::" rest then
        useAfterColons g false ((input.drop 1).drop 2)
      else
        useAfterColons g true (input.drop 1) := by
  have hkeyword : keyword "use" input = .ok ((), input.drop 1) := by
    obtain ⟨trees, bounded, closing, surplus⟩ := input
    cases h
    rfl
  have hrest : (input.drop 1).trees = rest := by
    rw [Input.trees_drop, h]
    rfl
  unfold useDeclaration
  rw [run_bind_of_ok hkeyword]
  split
  . next hcolons =>
    rw [← hrest] at hcolons
    rw [run_bind_of_ok ((punct?_eq ..).trans (if_pos hcolons))]
    rfl
  . next hcolons =>
    rw [← hrest] at hcolons
    rw [run_bind_of_ok ((punct?_eq ..).trans (if_neg hcolons))]
    rfl

theorem useAfterColons_refines {allowRoot allowRoot' : Bool}
    (h : Refines (useTree g g.steps allowRoot) (useTree g g.steps allowRoot'))
    : Refines (useAfterColons g allowRoot) (useAfterColons g allowRoot') := by
  refine h.bind_some ?_
  intro input declaration after hnone
  obtain ⟨_, _, _, hnone⟩ := run_bind_eq_ok_iff.1 hnone
  cases (run_pure_eq_ok_iff.1 hnone).1

theorem useDeclaration_iff_of_colons {rooted plain after : Input n} {declaration : Tree n}
    (h : DiffersInColons rooted plain)
    : useDeclaration g rooted = .ok (some declaration, after)
        ↔
      useDeclaration g plain = .ok (some declaration, after) := by
  obtain ⟨keyword, first, second, joint, rest, hrooted, hplain, hrest⟩ := h.trees
  have hstart : (rooted.drop 1).drop 2 = plain.drop 1 := by
    apply Input.eq_of_trees
    . simp [hrooted, hplain]
    . exact h.closing
    . exact h.surplus
  rw [useDeclaration_eq g hrooted, useDeclaration_eq g hplain, if_pos (by rfl), if_neg (by simp [hrest]),
    hstart]
  obtain ⟨htrue, hfalse⟩ := useTree_refines g g.steps
  constructor
  . exact useAfterColons_refines g hfalse _ _ _
  . exact useAfterColons_refines g htrue _ _ _

end Grammar

end PatternLint.Syntax
