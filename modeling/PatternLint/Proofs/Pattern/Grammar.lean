import PatternLint.Pattern.NodePattern
import PatternLint.Proofs.FirstProblem
import PatternLint.Proofs.Text.Split
import PatternLint.Proofs.Text.Trim

/-!
This module contains the law of the grammar of patterns: which texts are patterns, what they stand for,
and what is reported of those that are none. The grammar tells how a text is put together, and not how
it is taken apart.
-/

namespace PatternLint

namespace NodePattern

open Text (Trims)

/-! ### The grammar -/

structure IsMadeOf (text : List Char) (pieces : List (List Char)) : Prop where
  nonempty : pieces ≠ []
  text_eq : text = ['|'].intercalate pieces
  noBar : ∀ piece ∈ pieces, '|' ∉ piece

def NoParentheses (text : List Char) : Prop :=
  '(' ∉ text ∧ ')' ∉ text

instance (text : List Char) : Decidable (NoParentheses text) :=
  inferInstanceAs (Decidable (_ ∧ _))

/--
A text without blanks around it is a word alone, or a word with an argument between parentheses. There
may be blanks around the argument, and between the word and the first parenthesis.
-/
inductive IsCut (text : List Char) : List Char → Option (List Char) → Prop where
  | bare (h : NoParentheses text) : IsCut text text none
  | applied {front inside word argument : List Char} (htext : text = front ++ '(' :: (inside ++ [')']))
      (hfront : NoParentheses front) (hinside : NoParentheses inside) (hword : Trims front word)
      (hargument : Trims inside argument) : IsCut text word (some argument)

inductive Argument.IsArgument (kind : NodeKind) (text : List Char) : Argument → Prop where
  | name (hne : text ≠ []) (hsort : kind.argumentSort = .name) {glob : Glob}
      (hglob : Glob.parse (String.ofList text) = .ok glob) : IsArgument kind text (.name glob)
  | path (hne : text ≠ []) (hsort : kind.argumentSort = .path) (hparts : [] ∉ PathPattern.parts text)
      : IsArgument kind text (.path ⟨(PathPattern.parts text).map PathPattern.Segment.ofChars⟩)

/-- What a piece stands for: all nodes of a kind, or those that an argument admits. -/
inductive Term.IsTerm (piece : List Char) : Term → Prop where
  | bare {text : List Char} {kind : NodeKind} (htext : Trims piece text)
      (hcut : IsCut text kind.keyword.toList none) : IsTerm piece ⟨kind, .any⟩
  | applied {text argument : List Char} {kind : NodeKind} {a : Argument} (htext : Trims piece text)
      (hcut : IsCut text kind.keyword.toList (some argument)) (ha : a.IsArgument kind argument)
      : IsTerm piece ⟨kind, a⟩

inductive Argument.Admits (subject : String) : Argument → Prop where
  | any : Admits subject .any
  | name {glob : Glob} (h : glob.accepts subject = true) : Admits subject (.name glob)
  | path {pattern : PathPattern} (h : pattern.accepts subject = true) : Admits subject (.path pattern)

/-! ### What is wrong with a text -/

inductive Argument.Problem (kind : NodeKind) (text : List Char) : PatternError → Prop where
  | empty (h : text = []) : Problem kind text (.emptyArgument kind)
  | needless (hne : text ≠ []) (hsort : kind.argumentSort = .nothing)
      : Problem kind text (.needlessArgument kind)
  | glob (hne : text ≠ []) (hsort : kind.argumentSort = .name) {e : Glob.Error}
      (hglob : Glob.parse (String.ofList text) = .error e)
      : Problem kind text (.invalidGlob (String.ofList text) e)
  | path (hne : text ≠ []) (hsort : kind.argumentSort = .path) (hparts : [] ∈ PathPattern.parts text)
      : Problem kind text (.emptySegment (String.ofList (PathPattern.body text)))

inductive Term.Problem (piece : List Char) : PatternError → Prop where
  | empty (htext : Trims piece []) : Problem piece .emptyTerm
  | unbalanced {text : List Char} (htext : Trims piece text) (hne : text ≠ [])
      (h : ∀ word argument?, ¬ IsCut text word argument?)
      : Problem piece (.unbalancedParentheses (String.ofList text))
  | unknownKind {text word : List Char} {argument? : Option (List Char)} (htext : Trims piece text)
      (hne : text ≠ []) (hcut : IsCut text word argument?)
      (h : ∀ kind : NodeKind, kind.keyword ≠ String.ofList word)
      : Problem piece (.unknownKind (String.ofList word))
  | argument {text argument : List Char} {kind : NodeKind} {e : PatternError} (htext : Trims piece text)
      (hcut : IsCut text kind.keyword.toList (some argument)) (h : Argument.Problem kind argument e)
      : Problem piece e

/-! ### Pieces and words -/

theorem isMadeOf_iff {text : List Char} {pieces : List (List Char)}
    : IsMadeOf text pieces ↔ pieces = Text.splitAt '|' text := by
  constructor
  . rintro ⟨hne, rfl, hfree⟩
    exact (Text.splitAt_intercalate hne hfree).symm
  . rintro rfl
    refine ⟨Text.splitAt_ne_nil _ _, (Text.intercalate_splitAt _ _).symm, ?_⟩
    intro piece hpiece
    exact Text.not_mem_of_mem_splitAt hpiece

theorem ofKeyword?_eq_some_iff {word : String} {kind : NodeKind}
    : NodeKind.ofKeyword? word = some kind ↔ kind.keyword = word := by
  constructor
  . intro h
    have hfound := List.find?_some h
    exact beq_iff_eq.1 hfound
  . rintro rfl
    cases kind <;> rfl

theorem ofKeyword?_eq_none_iff {word : String}
    : NodeKind.ofKeyword? word = none ↔ ∀ kind : NodeKind, kind.keyword ≠ word := by
  simp only [Option.eq_none_iff_forall_ne_some, ne_eq, ofKeyword?_eq_some_iff]

theorem noParentheses_trims {text body : List Char} (h : Trims text body)
    : NoParentheses body ↔ NoParentheses text := by
  unfold NoParentheses
  rw [h.mem_iff (by decide), h.mem_iff (by decide)]

section Split

variable {text front rest : List Char}

theorem split?_of_not_mem (h : '(' ∉ text)
    : Term.split? text = if ')' ∈ text then none else some (Text.trim text, none) := by
  have hkept : ∀ c ∈ text, (c != '(') = true := by
    intro c hc
    rw [bne_iff_ne]
    rintro rfl
    contradiction
  have hword : text.takeWhile (· != '(') = text := List.takeWhile_eq_self_iff.2 hkept
  have hrest : text.dropWhile (· != '(') = [] := List.dropWhile_eq_nil_iff.2 hkept
  have hclose : ')' ∈ Text.trim text ↔ ')' ∈ text := (Text.trims_trim text).mem_iff (by decide)
  unfold Term.split?
  rw [hword, hrest]
  simp [hclose]

theorem split?_of_mem (h : '(' ∉ front)
    : Term.split? (front ++ '(' :: rest)
        =
      if rest.getLast? = some ')' then
        if NoParentheses front ∧ NoParentheses rest.dropLast then
          some (Text.trim front, some (Text.trim rest.dropLast))
        else
          none
      else
        none := by
  have hkept : ∀ c ∈ front, (c != '(') = true := by
    intro c hc
    rw [bne_iff_ne]
    rintro rfl
    contradiction
  have hword : (front ++ '(' :: rest).takeWhile (· != '(') = front := by
    rw [List.takeWhile_append_of_pos hkept]
    simp
  have hrest : (front ++ '(' :: rest).dropWhile (· != '(') = '(' :: rest := by
    rw [List.dropWhile_append_of_pos hkept]
    simp
  -- blanks are no parentheses, so it does not matter whether they are there
  have hno : NoParentheses front ∧ NoParentheses rest.dropLast
      ↔ ¬ ((Text.trim front).contains ')' || (Text.trim rest.dropLast).contains '('
        || (Text.trim rest.dropLast).contains ')') = true := by
    have hopen : '(' ∉ Text.trim front := by
      rwa [(Text.trims_trim front).mem_iff (by decide)]
    rw [← noParentheses_trims (Text.trims_trim front),
      ← noParentheses_trims (Text.trims_trim rest.dropLast)]
    simp [NoParentheses, hopen, and_assoc]
  unfold Term.split?
  rw [hword, hrest]
  simp only [hno, ite_not]

theorem split?_eq_some_iff {word : List Char} {argument? : Option (List Char)}
    (htrim : Trims text text)
    : Term.split? text = some (word, argument?) ↔ IsCut text word argument? := by
  constructor
  . intro h
    by_cases hmem : '(' ∈ text
    . obtain ⟨front, rest, rfl, hfront⟩ := List.eq_append_cons_of_mem hmem
      rw [split?_of_mem hfront] at h
      split at h
      . next hlast =>
        obtain ⟨inside, rfl⟩ := List.getLast?_eq_some_iff.1 hlast
        rw [List.dropLast_concat] at h
        split at h
        . next hno =>
          cases h
          exact .applied rfl hno.1 hno.2 (Text.trims_trim _) (Text.trims_trim _)
        . contradiction
      . contradiction
    . rw [split?_of_not_mem hmem] at h
      split at h
      . contradiction
      . next hclose =>
        rw [← htrim.eq_trim] at h
        cases h
        exact .bare ⟨hmem, hclose⟩
  . intro h
    cases h with
    | bare hno => rw [split?_of_not_mem hno.1, if_neg hno.2, ← htrim.eq_trim]
    | @applied front inside _ _ htext hfront hinside hword hargument =>
      subst htext
      rw [split?_of_mem hfront.1, List.getLast?_concat, if_pos rfl, List.dropLast_concat,
        if_pos ⟨hfront, hinside⟩, ← hword.eq_trim, ← hargument.eq_trim]

end Split

/-! ### What is read -/

theorem compile_ofList (text : List Char)
    : PathPattern.compile (String.ofList text)
        =
      if [] ∈ PathPattern.parts text then
        .error (.emptySegment (String.ofList (PathPattern.body text)))
      else
        .ok ⟨(PathPattern.parts text).map PathPattern.Segment.ofChars⟩ := by
  have hempty : (PathPattern.parts text).any List.isEmpty = true ↔ [] ∈ PathPattern.parts text := by
    simp
  unfold PathPattern.compile PathPattern.parse
  rw [String.toList_ofList]
  dsimp only
  simp only [hempty]
  split <;> rfl

theorem Argument.reads (kind : NodeKind) (text : List Char)
    : Reads (Argument.parse kind (String.ofList text)) (fun a => a.IsArgument kind text)
        (Argument.Problem kind text) := by
  have hempty : (String.ofList text).isEmpty = true ↔ text = [] := by
    simp
  unfold Argument.parse
  simp only [hempty, compile_ofList]
  apply Reads.of_total
  . rintro a (⟨hne, hsort, hglob⟩ | ⟨hne, hsort, hparts⟩)
    . rw [if_neg hne, hsort]
      dsimp only
      rw [hglob]
    . rw [if_neg hne, hsort]
      dsimp only
      rw [if_neg hparts]
      rfl
  . rintro e (hnone | ⟨hne, hsort⟩ | ⟨hne, hsort, hglob⟩ | ⟨hne, hsort, hparts⟩)
    . rw [if_pos hnone]
    . rw [if_neg hne, hsort]
    . rw [if_neg hne, hsort]
      dsimp only
      rw [hglob]
    . rw [if_neg hne, hsort]
      dsimp only
      rw [if_pos hparts]
      rfl
  . by_cases hne : text = []
    . exact .inr ⟨_, .empty hne⟩
    . cases hsort : kind.argumentSort with
      | nothing => exact .inr ⟨_, .needless hne hsort⟩
      | name =>
        cases hglob : Glob.parse (String.ofList text) with
        | ok glob => exact .inl ⟨_, .name hne hsort hglob⟩
        | error e => exact .inr ⟨_, .glob hne hsort hglob⟩
      | path =>
        by_cases hparts : [] ∈ PathPattern.parts text
        . exact .inr ⟨_, .path hne hsort hparts⟩
        . exact .inl ⟨_, .path hne hsort hparts⟩

namespace Term

theorem ne_nil_of_isCut {text : List Char} {kind : NodeKind} {argument? : Option (List Char)}
    (h : IsCut text kind.keyword.toList argument?) : text ≠ [] := by
  generalize hword : kind.keyword.toList = word at h
  cases h with
  | bare _ =>
    rw [← hword]
    cases kind <;> decide
  | applied htext _ _ _ _ =>
    rw [htext]
    simp

theorem parse_of_isCut {piece text word : List Char} {argument? : Option (List Char)}
    (htext : Trims piece text) (hne : text ≠ []) (hcut : IsCut text word argument?)
    : Term.parse piece
        =
      (NodeKind.ofKeyword? (String.ofList word)).elim (.error (.unknownKind (String.ofList word)))
        fun kind => argument?.elim (.ok ⟨kind, .any⟩)
          fun argument => (Argument.parse kind (String.ofList argument)).map (Term.mk kind) := by
  unfold Term.parse
  rw [← htext.eq_trim]
  dsimp only
  rw [if_neg (by simpa using hne), (split?_eq_some_iff htext.self).2 hcut]
  dsimp only
  cases NodeKind.ofKeyword? (String.ofList word) with
  | none => rfl
  | some kind => cases argument? <;> rfl

theorem reads (piece : List Char)
    : Reads (Term.parse piece) (Term.IsTerm piece) (Term.Problem piece) := by
  apply Reads.of_total
  . intro t ht
    cases ht with
    | @bare text kind htext hcut =>
      rw [parse_of_isCut htext (ne_nil_of_isCut hcut) hcut, String.ofList_toList,
        ofKeyword?_eq_some_iff.2 rfl]
      rfl
    | @applied text argument kind a htext hcut ha =>
      rw [parse_of_isCut htext (ne_nil_of_isCut hcut) hcut, String.ofList_toList,
        ofKeyword?_eq_some_iff.2 rfl]
      exact map_eq_ok_iff.2 ⟨a, ((Argument.reads kind argument).eq_ok_iff a).2 ha, rfl⟩
  . intro e he
    cases he with
    | empty htext =>
      unfold Term.parse
      rw [← htext.eq_trim]
      rfl
    | @unbalanced text htext hne h =>
      have hnone : Term.split? text = none := by
        rw [Option.eq_none_iff_forall_ne_some]
        rintro ⟨word, argument?⟩ hsome
        exact h word argument? ((split?_eq_some_iff htext.self).1 hsome)
      unfold Term.parse
      rw [← htext.eq_trim]
      dsimp only
      rw [if_neg (by simpa using hne), hnone]
    | unknownKind htext hne hcut h =>
      rw [parse_of_isCut htext hne hcut, ofKeyword?_eq_none_iff.2 h]
      rfl
    | @argument text argument kind _ htext hcut h =>
      rw [parse_of_isCut htext (ne_nil_of_isCut hcut) hcut, String.ofList_toList,
        ofKeyword?_eq_some_iff.2 rfl]
      exact map_eq_error_iff.2 (((Argument.reads kind argument).eq_error_iff e).2 h)
  . have htext := Text.trims_trim piece
    generalize Text.trim piece = text at htext
    by_cases hne : text = []
    . exact .inr ⟨_, .empty (hne ▸ htext)⟩
    cases hsplit : Term.split? text with
    | none =>
      refine .inr ⟨_, .unbalanced htext hne ?_⟩
      intro word argument? hcut
      rw [(split?_eq_some_iff htext.self).2 hcut] at hsplit
      contradiction
    | some cut =>
      obtain ⟨word, argument?⟩ := cut
      have hcut := (split?_eq_some_iff htext.self).1 hsplit
      cases hkind : NodeKind.ofKeyword? (String.ofList word) with
      | none => exact .inr ⟨_, .unknownKind htext hne hcut (ofKeyword?_eq_none_iff.1 hkind)⟩
      | some kind =>
        have hword : word = kind.keyword.toList := by
          rw [ofKeyword?_eq_some_iff.1 hkind, String.toList_ofList]
        subst hword
        cases argument? with
        | none => exact .inl ⟨_, .bare htext hcut⟩
        | some argument =>
          cases hargument : Argument.parse kind (String.ofList argument) with
          | ok a =>
            exact .inl ⟨_, .applied htext hcut (((Argument.reads kind argument).eq_ok_iff a).1 hargument)⟩
          | error e =>
            exact .inr ⟨_, .argument htext hcut (((Argument.reads kind argument).eq_error_iff e).1 hargument)⟩

end Term

theorem Argument.accepts_eq_true_iff {subject : String} {a : Argument}
    : a.accepts subject = true ↔ a.Admits subject := by
  constructor
  . intro h
    cases a with
    | any => exact .any
    | name glob => exact .name h
    | path pattern => exact .path h
  . rintro (_ | h | h)
    . rfl
    . exact h
    . exact h

theorem exists_mem_terms_iff {pieces : List (List Char)} {terms : List Term} {p : Term → Prop}
    (h : List.Forall₂ Term.IsTerm pieces terms)
    : (∃ t ∈ terms, p t) ↔ ∃ piece ∈ pieces, ∃ t, Term.IsTerm piece t ∧ p t := by
  induction h with
  | nil => simp
  | @cons piece t pieces terms ht _ ih =>
    have hunique (other : Term) : Term.IsTerm piece other ↔ t = other := by
      rw [← (Term.reads piece).eq_ok_iff, ((Term.reads piece).eq_ok_iff t).2 ht, Except.ok.injEq]
    simp [ih, hunique]

section Parse

variable {source : String} {pieces : List (List Char)}

def IsBlank (source : String) : Prop :=
  ∀ c ∈ source.toList, Text.isBlank c = true

theorem parse_of_isBlank (h : IsBlank source) : parse source = .error .emptyPattern := by
  unfold parse Text.isAllBlank
  rw [if_pos (List.all_eq_true.2 h)]

theorem parse_reads (hpieces : IsMadeOf source.toList pieces) (h : ¬ IsBlank source)
    : Reads (parse source) (fun p => p.source = source ∧ List.Forall₂ Term.IsTerm pieces p.terms)
        (FirstProblem (fun _ => Term.Problem) pieces) := by
  have hterms := Reads.mapM Term.reads pieces
  unfold parse Text.isAllBlank
  rw [if_neg (fun hall => h (List.all_eq_true.1 hall)), ← isMadeOf_iff.1 hpieces]
  constructor
  . intro p
    rw [bind_eq_ok_iff]
    simp only [hterms.eq_ok_iff]
    constructor
    . rintro ⟨terms, hall, hp⟩
      cases hp
      exact ⟨rfl, hall⟩
    . rintro ⟨rfl, hall⟩
      exact ⟨p.terms, hall, rfl⟩
  . intro e
    rw [bind_eq_error_iff, ← hterms.eq_error_iff]
    simp [pure, Except.pure]

theorem parse_eq_ok_iff (hpieces : IsMadeOf source.toList pieces) (p : NodePattern)
    : parse source = .ok p
        ↔
      ¬ IsBlank source ∧ p.source = source ∧ List.Forall₂ Term.IsTerm pieces p.terms := by
  by_cases hblank : IsBlank source
  . simp [parse_of_isBlank hblank, hblank]
  . simp [(parse_reads hpieces hblank).eq_ok_iff, hblank]

theorem parse_eq_error_iff (hpieces : IsMadeOf source.toList pieces) (e : PatternError)
    : parse source = .error e
        ↔
      IsBlank source ∧ e = .emptyPattern
        ∨ ¬ IsBlank source ∧ FirstProblem (fun _ => Term.Problem) pieces e := by
  by_cases hblank : IsBlank source
  . simp [parse_of_isBlank hblank, hblank, eq_comm]
  . simp [(parse_reads hpieces hblank).eq_error_iff, hblank]

theorem exists_parse_iff (hpieces : IsMadeOf source.toList pieces)
    : (∃ p, parse source = .ok p) ↔ ¬ IsBlank source ∧ ∀ piece ∈ pieces, ∃ t, Term.IsTerm piece t := by
  by_cases hblank : IsBlank source
  . simp [parse_of_isBlank hblank, hblank]
  . have hall : Faultless (fun _ => Term.Problem) pieces ↔ ∀ piece ∈ pieces, ∃ t, Term.IsTerm piece t :=
      faultless_iff_forall_mem fun _ piece => (Term.reads piece).exists_ok_iff.symm
    rw [exists_eq_ok_iff_faultless (parse_reads hpieces hblank).eq_error_iff, hall]
    simp [hblank]

/--
The law of the grammar. A text that is not blank is a pattern exactly if each of its pieces between bars
stands for a term, and the terms are then those of the pieces, in their order. Otherwise what is reported
is the first thing that is wrong with the first piece that stands for none.
-/
theorem parse_grammar (source : String)
    : ∃ pieces, IsMadeOf source.toList pieces
        ∧ ((∃ p, parse source = .ok p)
          ↔ ¬ IsBlank source ∧ ∀ piece ∈ pieces, ∃ t, Term.IsTerm piece t)
        ∧ (∀ p, parse source = .ok p
          ↔ ¬ IsBlank source ∧ p.source = source ∧ List.Forall₂ Term.IsTerm pieces p.terms)
        ∧ (∀ e, parse source = .error e
          ↔ IsBlank source ∧ e = .emptyPattern
            ∨ ¬ IsBlank source ∧ FirstProblem (fun _ => Term.Problem) pieces e)
        ∧ ∀ p, parse source = .ok p → ∀ kind,
          (p.wants kind = true ↔ ∃ piece ∈ pieces, ∃ t, Term.IsTerm piece t ∧ t.kind = kind)
            ∧ ∀ subject, p.accepts kind subject = true
              ↔ ∃ piece ∈ pieces, ∃ t, Term.IsTerm piece t ∧ t.kind = kind ∧ t.argument.Admits subject := by
  have hpieces : IsMadeOf source.toList (Text.splitAt '|' source.toList) := isMadeOf_iff.2 rfl
  refine ⟨_, hpieces, exists_parse_iff hpieces, parse_eq_ok_iff hpieces, parse_eq_error_iff hpieces, ?_⟩
  intro p hp kind
  have hterms := ((parse_eq_ok_iff hpieces p).1 hp).2.2
  constructor
  . rw [← exists_mem_terms_iff hterms]
    simp [wants]
  . intro subject
    rw [← exists_mem_terms_iff hterms]
    simp [accepts, Term.accepts, Argument.accepts_eq_true_iff]

end Parse

theorem parse_grammar_sample
    : ∃ p pieces, parse "fn( test_* ) | use(std::*) | unsafe" = .ok p
        ∧ IsMadeOf "fn( test_* ) | use(std::*) | unsafe".toList pieces
        ∧ (∃ piece ∈ pieces, ∃ t, Term.IsTerm piece t ∧ t.kind = .function ∧ t.argument.Admits "test_a")
        ∧ (∃ piece ∈ pieces, ∃ t, Term.IsTerm piece t ∧ t.kind = .useLeaf ∧ t.argument.Admits "std::fs")
        ∧ ¬ ∃ piece ∈ pieces, ∃ t, Term.IsTerm piece t ∧ t.kind = .useLeaf
          ∧ t.argument.Admits "std::fs::read" := by
  have hall
      : (parse "fn( test_* ) | use(std::*) | unsafe").toOption.map (fun p =>
          (p.accepts .function "test_a", p.accepts .useLeaf "std::fs",
            p.accepts .useLeaf "std::fs::read"))
        = some (true, true, false) := by
    decide +kernel
  obtain ⟨p, hp, hall⟩ := Option.map_eq_some_iff.1 hall
  rw [toOption_eq_some_iff] at hp
  simp only [Prod.mk.injEq] at hall
  obtain ⟨hfunction, hpath, hrefused⟩ := hall
  obtain ⟨pieces, hpieces, _, _, _, hmeaning⟩ := parse_grammar "fn( test_* ) | use(std::*) | unsafe"
  have haccepts (kind : NodeKind) := (hmeaning p hp kind).2
  refine ⟨p, pieces, hp, hpieces, (haccepts _ "test_a").1 hfunction, (haccepts _ "std::fs").1 hpath, ?_⟩
  rw [← haccepts _ "std::fs::read", hrefused]
  exact Bool.false_ne_true

end NodePattern

end PatternLint
