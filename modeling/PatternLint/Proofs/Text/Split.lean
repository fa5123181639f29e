import PatternLint.Text.Split

/-!
This module contains the laws of cutting a list at a separator: the pieces of two lists with a
separator between them are the pieces of both, and lists without separators are put together and cut
again without a change.
-/

namespace PatternLint.Text

variable {α : Type}

theorem consToFirst_append (c : α) {pieces : List (List α)} (h : pieces ≠ [])
    (others : List (List α))
    : consToFirst c (pieces ++ others) = consToFirst c pieces ++ others := by
  cases pieces with
  | nil => contradiction
  | cons piece pieces => rfl

variable [DecidableEq α]

theorem splitAt_ne_nil (sep : α) (cs : List α) : splitAt sep cs ≠ [] := by
  cases cs with
  | nil => simp [splitAt]
  | cons c cs =>
    rw [splitAt]
    split
    . simp
    . cases splitAt sep cs <;> simp [consToFirst]

theorem splitAt_append (sep : α) (cs ds : List α)
    : splitAt sep (cs ++ sep :: ds) = splitAt sep cs ++ splitAt sep ds := by
  induction cs with
  | nil => simp [splitAt]
  | cons c cs ih =>
    rw [List.cons_append, splitAt, splitAt]
    split
    . rw [ih]
      rfl
    . rw [ih]
      apply consToFirst_append
      apply splitAt_ne_nil

theorem splitAt_eq_singleton {sep : α} {cs : List α} (h : sep ∉ cs)
    : splitAt sep cs = [cs] := by
  induction cs with
  | nil => rfl
  | cons c cs ih =>
    rw [List.mem_cons, not_or] at h
    rw [splitAt, if_neg (Ne.symm h.1), ih h.2]
    rfl

theorem not_mem_of_mem_splitAt {sep : α} {cs piece : List α}
    (h : piece ∈ splitAt sep cs) : sep ∉ piece := by
  induction cs generalizing piece with
  | nil =>
    rw [splitAt, List.mem_singleton] at h
    simp [h]
  | cons c cs ih =>
    rw [splitAt] at h
    split at h
    . rcases List.mem_cons.1 h with rfl | h
      . simp
      . exact ih h
    . next hc =>
      cases hpieces : splitAt sep cs with
      | nil => exact absurd hpieces (splitAt_ne_nil sep cs)
      | cons first rest =>
        rw [hpieces, consToFirst] at h
        rcases List.mem_cons.1 h with rfl | h
        . rw [List.mem_cons, not_or]
          refine ⟨Ne.symm hc, ih ?_⟩
          simp [hpieces]
        . apply ih
          simp [hpieces, h]

theorem intercalate_splitAt (sep : α) (cs : List α)
    : [sep].intercalate (splitAt sep cs) = cs := by
  induction cs with
  | nil => simp [splitAt]
  | cons c cs ih =>
    rw [splitAt]
    cases hpieces : splitAt sep cs with
    | nil => exact absurd hpieces (splitAt_ne_nil sep cs)
    | cons first rest =>
      rw [hpieces] at ih
      split
      . next hc =>
        rw [List.intercalate_cons_cons, ih, hc]
        rfl
      . rw [consToFirst]
        cases rest with
        | nil => simpa using ih
        | cons second rest =>
          rw [List.intercalate_cons_cons] at ih ⊢
          rw [← ih]
          rfl

theorem splitAt_intercalate {sep : α} {pieces : List (List α)} (hne : pieces ≠ [])
    (h : ∀ piece ∈ pieces, sep ∉ piece)
    : splitAt sep ([sep].intercalate pieces) = pieces := by
  induction pieces with
  | nil => contradiction
  | cons piece pieces ih =>
    have hpiece := splitAt_eq_singleton (h piece List.mem_cons_self)
    cases pieces with
    | nil => simpa using hpiece
    | cons next pieces =>
      rw [List.intercalate_cons_cons, List.append_assoc, List.singleton_append, splitAt_append,
        hpiece, ih]
      . rfl
      . simp
      . intro other hother
        exact h other (List.mem_cons_of_mem _ hother)

end PatternLint.Text
