import Mathlib.Data.List.Basic
import Mathlib.Data.List.Forall2
import PatternLint.Proofs.Except

/-!
This module contains what it means that the first problem in a list is reported. A loop that stops at
the first entry it cannot handle reports exactly that problem, whatever comes after it. What one entry
is read as is told by a relation for what is right and one for what is wrong.
-/

namespace PatternLint

variable {α β ε σ : Type}

/--
No entry of a list has a problem: `problem before a e` tells that `a`, after the entries `before`, has
the problem `e`.
-/
def Faultless (problem : List α → α → ε → Prop) (entries : List α) : Prop :=
  ∀ before a after, entries = before ++ a :: after → ∀ e, ¬ problem before a e

/-- An entry of a list has the problem `e`, and those before it have none. -/
def FirstProblem (problem : List α → α → ε → Prop) (entries : List α) (e : ε) : Prop :=
  ∃ before a after, entries = before ++ a :: after ∧ problem before a e
    ∧ Faultless problem before

section

variable {problem : List α → α → ε → Prop} {a : α} {entries : List α} {e : ε}

theorem faultless_nil : Faultless problem [] := by
  intro before a after h
  simp at h

theorem faultless_cons_iff
    : Faultless problem (a :: entries)
        ↔
      (∀ e, ¬ problem [] a e) ∧ Faultless (fun before => problem (a :: before)) entries := by
  constructor
  . intro h
    refine ⟨h [] a entries rfl, ?_⟩
    intro before b after heq
    exact h (a :: before) b after (by rw [heq]; rfl)
  . rintro ⟨hfirst, hrest⟩ before b after heq
    cases before with
    | nil =>
      injection heq with ha
      exact ha ▸ hfirst
    | cons first before =>
      injection heq with ha hentries
      exact ha ▸ hrest before b after hentries

theorem faultless_concat_iff
    : Faultless problem (entries ++ [a]) ↔ Faultless problem entries ∧ ∀ e, ¬ problem entries a e := by
  constructor
  . intro h
    refine ⟨?_, h entries a [] rfl⟩
    intro before b after heq
    exact h before b (after ++ [a]) (by rw [heq]; simp)
  . rintro ⟨hentries, hlast⟩ before b after heq
    rcases List.eq_nil_or_concat after with rfl | ⟨init, last, rfl⟩
    . obtain ⟨rfl, hb⟩ := List.append_inj' heq rfl
      injection hb with hb
      exact hb ▸ hlast
    . rw [List.concat_eq_append, ← List.cons_append, ← List.append_assoc] at heq
      exact hentries before b init (List.append_inj' heq rfl).1

theorem faultless_iff_forall_mem {ok : α → Prop} (h : ∀ before a, (∀ e, ¬ problem before a e) ↔ ok a)
    : Faultless problem entries ↔ ∀ a ∈ entries, ok a := by
  constructor
  . intro hentries a ha
    obtain ⟨before, after, heq⟩ := List.append_of_mem ha
    exact (h before a).1 (hentries before a after heq)
  . rintro hall before a after rfl
    apply (h before a).2
    apply hall
    simp

theorem not_firstProblem_nil : ¬ FirstProblem problem [] e := by
  rintro ⟨before, a, after, h, _⟩
  simp at h

theorem firstProblem_cons_iff
    : FirstProblem problem (a :: entries) e
        ↔
      problem [] a e
        ∨ (∀ e, ¬ problem [] a e)
          ∧ FirstProblem (fun before => problem (a :: before)) entries e := by
  constructor
  . rintro ⟨before, b, after, heq, hproblem, hbefore⟩
    cases before with
    | nil =>
      injection heq with ha
      exact .inl (ha ▸ hproblem)
    | cons first before =>
      injection heq with ha hentries
      subst ha
      obtain ⟨hfirst, hrest⟩ := faultless_cons_iff.1 hbefore
      exact .inr ⟨hfirst, before, b, after, hentries, hproblem, hrest⟩
  . rintro (hproblem | ⟨hfirst, before, b, after, rfl, hproblem, hrest⟩)
    . exact ⟨[], a, entries, rfl, hproblem, faultless_nil⟩
    . exact ⟨a :: before, b, after, rfl, hproblem, faultless_cons_iff.2 ⟨hfirst, hrest⟩⟩

theorem faultless_iff_forall_not_firstProblem
    : Faultless problem entries ↔ ∀ e, ¬ FirstProblem problem entries e := by
  induction entries generalizing problem with
  | nil => exact ⟨fun _ _ => not_firstProblem_nil, fun _ => faultless_nil⟩
  | cons a entries ih =>
    rw [faultless_cons_iff, ih]
    simp only [firstProblem_cons_iff, not_or, not_and]
    constructor
    . rintro ⟨hfirst, hrest⟩ e
      exact ⟨hfirst e, fun _ => hrest e⟩
    . intro h
      have hfirst (e : ε) : ¬ problem [] a e := (h e).1
      exact ⟨hfirst, fun e => (h e).2 hfirst⟩

theorem exists_eq_ok_iff_faultless {x : Except ε β}
    (h : ∀ e, x = .error e ↔ FirstProblem problem entries e)
    : (∃ b, x = .ok b) ↔ Faultless problem entries := by
  rw [faultless_iff_forall_not_firstProblem]
  simp only [← h]
  cases x <;> simp

end

/--
`go` handles the entries of a list one after the other, while `invariant` tells of its state what the
entries handled so far have made of it. It stops at an entry that has a problem, and only there.
-/
structure StopsAtFirst (problem : List α → α → ε → Prop) (invariant : List α → σ → Prop)
    (go : σ → List α → Except ε β) : Prop where
  nil : ∀ state, ∃ b, go state [] = .ok b
  cons : ∀ handled state a, invariant handled state →
    (∃ e, (∀ entries, go state (a :: entries) = .error e)
        ∧ ∀ other, problem handled a other ↔ other = e)
      ∨ (∀ e, ¬ problem handled a e)
        ∧ ∃ next, invariant (handled ++ [a]) next
          ∧ ∀ entries, go state (a :: entries) = go next entries

namespace StopsAtFirst

variable {problem : List α → α → ε → Prop} {invariant : List α → σ → Prop}
  {go : σ → List α → Except ε β} {state : σ}

theorem eq_error_iff_after (h : StopsAtFirst problem invariant go) {handled : List α}
    (hstate : invariant handled state) (entries : List α) (e : ε)
    : go state entries = .error e
        ↔
      FirstProblem (fun before => problem (handled ++ before)) entries e := by
  induction entries generalizing handled state with
  | nil =>
    obtain ⟨b, hb⟩ := h.nil state
    rw [hb]
    exact ⟨fun heq => by contradiction, fun hfirst => absurd hfirst not_firstProblem_nil⟩
  | cons a entries ih =>
    rw [firstProblem_cons_iff, List.append_nil]
    rcases h.cons handled state a hstate with ⟨e', hstop, hproblem⟩ | ⟨hnone, next, hnext, hgo⟩
    . -- the problem of this entry leaves no room for one of a later entry
      have hsome : ¬ ∀ e, ¬ problem handled a e := fun hall => hall e' ((hproblem e').2 rfl)
      rw [hstop, Except.error.injEq, hproblem, eq_comm]
      exact ⟨.inl, fun hor => hor.resolve_right fun hrest => hsome hrest.1⟩
    . have hrest := ih hnext
      simp only [List.append_assoc, List.singleton_append] at hrest
      rw [hgo, hrest]
      exact ⟨fun hfirst => .inr ⟨hnone, hfirst⟩, fun hor => (hor.resolve_left (hnone e)).2⟩

theorem eq_error_iff (h : StopsAtFirst problem invariant go) (hstate : invariant [] state)
    (entries : List α) (e : ε) : go state entries = .error e ↔ FirstProblem problem entries e := by
  exact h.eq_error_iff_after hstate entries e

end StopsAtFirst

/-! ### Readers -/

/-- A reader makes of its text exactly what `ok` tells, or refuses it for exactly what `problem` tells. -/
structure Reads (x : Except ε β) (ok : β → Prop) (problem : ε → Prop) : Prop where
  eq_ok_iff : ∀ b, x = .ok b ↔ ok b
  eq_error_iff : ∀ e, x = .error e ↔ problem e

namespace Reads

variable {ok : α → β → Prop} {problem : α → ε → Prop} {f : α → Except ε β}

theorem of_total {x : Except ε β} {ok : β → Prop} {problem : ε → Prop} (hok : ∀ b, ok b → x = .ok b)
    (hproblem : ∀ e, problem e → x = .error e) (htotal : (∃ b, ok b) ∨ ∃ e, problem e)
    : Reads x ok problem := by
  rcases htotal with ⟨b, hb⟩ | ⟨e, he⟩
  . refine ⟨fun other => ⟨?_, hok other⟩, fun e => ⟨?_, hproblem e⟩⟩
    . intro hother
      rw [hok b hb, Except.ok.injEq] at hother
      exact hother ▸ hb
    . intro he
      rw [hok b hb] at he
      contradiction
  . refine ⟨fun b => ⟨?_, hok b⟩, fun other => ⟨?_, hproblem other⟩⟩
    . intro hb
      rw [hproblem e he] at hb
      contradiction
    . intro hother
      rw [hproblem e he, Except.error.injEq] at hother
      exact hother ▸ he

theorem exists_ok_iff {x : Except ε β} {ok : β → Prop} {problem : ε → Prop} (h : Reads x ok problem)
    : (∃ b, ok b) ↔ ∀ e, ¬ problem e := by
  simp only [← h.eq_ok_iff, ← h.eq_error_iff]
  cases x <;> simp

theorem mapM (h : ∀ a, Reads (f a) (ok a) (problem a)) (entries : List α)
    : Reads (entries.mapM f) (List.Forall₂ ok entries)
        (FirstProblem (fun _ => problem) entries) := by
  induction entries with
  | nil =>
    refine ⟨fun bs => ?_, fun e => ?_⟩
    . simp [pure, Except.pure, eq_comm]
    . simp [pure, Except.pure, not_firstProblem_nil]
  | cons a entries ih =>
    rw [List.mapM_cons]
    refine ⟨fun bs => ?_, fun e => ?_⟩
    . rw [bind_eq_ok_iff]
      constructor
      . rintro ⟨b, hb, hbind⟩
        obtain ⟨rest, hrest, hcons⟩ := bind_eq_ok_iff.1 hbind
        cases hcons
        exact .cons (((h a).eq_ok_iff b).1 hb) ((ih.eq_ok_iff rest).1 hrest)
      . intro hall
        cases hall with
        | cons hb hrest =>
          exact ⟨_, ((h a).eq_ok_iff _).2 hb, bind_eq_ok_iff.2 ⟨_, (ih.eq_ok_iff _).2 hrest, rfl⟩⟩
    . rw [bind_eq_error_iff, (h a).eq_error_iff, firstProblem_cons_iff, ← (h a).exists_ok_iff,
        ← ih.eq_error_iff]
      apply or_congr_right
      simp [(h a).eq_ok_iff, bind_eq_error_iff, pure, Except.pure]

end Reads

end PatternLint
