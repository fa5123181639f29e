import Mathlib.Data.List.DropRight
import Mathlib.Data.List.TakeWhile
import PatternLint.Text.Split

/-!
This module contains the law of trimming: what is left of a text is the one part of it that has only
blanks before and after it, and neither starts nor ends with one.
-/

namespace PatternLint.Text

structure Trims (text body : List Char) : Prop where
  around : ∃ front back, text = front ++ body ++ back ∧ (∀ c ∈ front, isBlank c = true)
    ∧ ∀ c ∈ back, isBlank c = true
  starts : ∀ c, body.head? = some c → isBlank c = false
  ends : ∀ c, body.getLast? = some c → isBlank c = false

theorem dropWhile_blanks {front rest : List Char} (hfront : ∀ c ∈ front, isBlank c = true)
    (hrest : ∀ c, rest.head? = some c → isBlank c = false) : (front ++ rest).dropWhile isBlank = rest := by
  rw [List.dropWhile_append_of_pos hfront]
  cases rest with
  | nil => rfl
  | cons c rest => exact List.dropWhile_cons_of_neg (by simp [hrest c rfl])

theorem exists_dropWhile_blanks (cs : List Char)
    : ∃ front, cs = front ++ cs.dropWhile isBlank ∧ (∀ c ∈ front, isBlank c = true)
        ∧ ∀ c, (cs.dropWhile isBlank).head? = some c → isBlank c = false := by
  refine ⟨cs.takeWhile isBlank, List.takeWhile_append_dropWhile.symm, ?_, ?_⟩
  . intro c hc
    exact List.mem_takeWhile_imp hc
  . intro c hc
    have := List.head?_dropWhile_not isBlank cs
    rw [hc] at this
    exact this

theorem Trims.eq_trim {text body : List Char} (h : Trims text body) : body = trim text := by
  obtain ⟨⟨front, back, rfl, hfront, hback⟩, hstarts, hends⟩ := h
  unfold trim
  cases body with
  | nil =>
    have hblank : ∀ c ∈ front ++ [] ++ back, isBlank c = true := by
      intro c hc
      rw [List.append_nil, List.mem_append] at hc
      exact hc.elim (hfront c) (hback c)
    rw [List.dropWhile_eq_nil_iff.2 hblank]
    rfl
  | cons c body =>
    have hfirst : (front ++ (c :: body) ++ back).dropWhile isBlank = c :: body ++ back := by
      rw [List.append_assoc]
      exact dropWhile_blanks hfront hstarts
    have hlast : (c :: body ++ back).reverse.dropWhile isBlank = (c :: body).reverse := by
      rw [List.reverse_append]
      apply dropWhile_blanks
      . simpa using hback
      . rw [List.head?_reverse]
        exact hends
    rw [hfirst, hlast, List.reverse_reverse]

theorem trims_trim (text : List Char) : Trims text (trim text) := by
  unfold trim
  obtain ⟨front, hfront, hblank, hstarts⟩ := exists_dropWhile_blanks text
  generalize text.dropWhile isBlank = rest at hfront hstarts ⊢
  obtain ⟨back, hback, hblank', hends⟩ := exists_dropWhile_blanks rest.reverse
  generalize rest.reverse.dropWhile isBlank = body at hback hends ⊢
  have hrest : rest = body.reverse ++ back.reverse := by
    rw [← List.reverse_append, ← hback, List.reverse_reverse]
  refine ⟨⟨front, back.reverse, ?_, hblank, by simpa using hblank'⟩, ?_, ?_⟩
  . rw [hfront, hrest, List.append_assoc]
  . -- the first character is still that of the whole rest, unless there is none
    intro c hc
    apply hstarts
    rw [hrest, List.head?_append, hc]
    rfl
  . rw [List.getLast?_reverse]
    exact hends

theorem Trims.self {text body : List Char} (h : Trims text body) : Trims body body :=
  ⟨⟨[], [], by simp⟩, h.starts, h.ends⟩

theorem Trims.mem_iff {text body : List Char} (h : Trims text body) {c : Char} (hc : isBlank c = false)
    : c ∈ body ↔ c ∈ text := by
  obtain ⟨⟨front, back, rfl, hfront, hback⟩, _, _⟩ := h
  have hnot {cs : List Char} (hcs : ∀ c ∈ cs, isBlank c = true) : c ∉ cs := by
    intro hmem
    simp [hcs c hmem] at hc
  simp [hnot hfront, hnot hback]

@[simp]
theorem trim_nil : trim [] = [] := by
  rfl

theorem trim_dropWhile (text : List Char) : trim (text.dropWhile isBlank) = trim text := by
  unfold trim
  rw [List.dropWhile_idempotent]

theorem trim_blanks_append {front : List Char} (hfront : ∀ c ∈ front, isBlank c = true) (text : List Char)
    : trim (front ++ text) = trim text := by
  rw [← trim_dropWhile, List.dropWhile_append_of_pos hfront, trim_dropWhile]

theorem trim_append_blanks {back : List Char} (hback : ∀ c ∈ back, isBlank c = true) (text : List Char)
    : trim (text ++ back) = trim text := by
  obtain ⟨⟨front, others, htext, hfront, hothers⟩, hstarts, hends⟩ := trims_trim text
  have hall : ∀ c ∈ others ++ back, isBlank c = true := by
    intro c hc
    exact (List.mem_append.1 hc).elim (hothers c) (hback c)
  have htrims : Trims (text ++ back) (trim text) := by
    refine ⟨⟨front, others ++ back, ?_, hfront, hall⟩, hstarts, hends⟩
    rw [htext, List.append_assoc, ← htext]
  exact htrims.eq_trim.symm

theorem trim_eq_nil_iff {text : List Char} : trim text = [] ↔ ∀ c ∈ text, isBlank c = true := by
  constructor
  . intro hnil
    obtain ⟨⟨front, back, htext, hfront, hback⟩, _, _⟩ := trims_trim text
    rw [hnil, List.append_nil] at htext
    intro c hc
    rw [htext, List.mem_append] at hc
    exact hc.elim (hfront c) (hback c)
  . intro hblank
    rw [← trim_dropWhile, List.dropWhile_eq_nil_iff.2 hblank, trim_nil]

theorem exists_dropWhile_eq_trim_append (text : List Char)
    : ∃ back, text.dropWhile isBlank = trim text ++ back ∧ ∀ c ∈ back, isBlank c = true := by
  obtain ⟨back, hback, hblank, _⟩ := exists_dropWhile_blanks (text.dropWhile isBlank).reverse
  refine ⟨back.reverse, ?_, by simpa using hblank⟩
  rw [← List.reverse_inj, hback, List.reverse_append, List.reverse_reverse, trim, List.reverse_reverse]

end PatternLint.Text
