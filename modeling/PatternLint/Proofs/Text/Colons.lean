import Mathlib.Data.List.Chain
import PatternLint.Proofs.Text.Trim

/-!
This module contains the laws of cutting a text at the separators `::`: the pieces are those that the
text is made of with each separator as far to the left as it can be, separators in front are pieces
without a character, and blanks at an end of the text are blanks at an end of a piece.
-/

namespace PatternLint.Text

def IsUncut (cs : List Char) : Prop :=
  ¬ [':', ':'] <:+: cs

/--
A text is made of pieces with the separator `::` between them. Each separator is the first two colons in
a row.
-/
inductive IsCutAtColons : List Char → List (List Char) → Prop where
  | last {piece : List Char} (huncut : IsUncut piece) : IsCutAtColons piece [piece]
  | more {piece rest : List Char} {pieces : List (List Char)} (huncut : IsUncut piece)
      (hend : piece.getLast? ≠ some ':') (hrest : IsCutAtColons rest pieces)
      : IsCutAtColons (piece ++ ':' :: ':' :: rest) (piece :: pieces)

structure Unseparates (text body : List Char) : Prop where
  front : ∃ count, text = (List.replicate count [':', ':']).flatten ++ body
  starts : ¬ [':', ':'] <+: body

section Pieces

variable {cs : List Char}

@[simp]
theorem isUncut_nil : IsUncut [] := by
  simp [IsUncut]

theorem isUncut_cons_iff {c : Char}
    : IsUncut (c :: cs) ↔ ¬ (c = ':' ∧ cs.head? = some ':') ∧ IsUncut cs := by
  unfold IsUncut
  rw [List.infix_cons_iff, not_or]
  refine and_congr_left fun _ => not_congr ?_
  cases cs with
  | nil => simp
  | cons d cs => simp [eq_comm]

theorem isUncut_append_iff {ds : List Char}
    : IsUncut (cs ++ ds)
        ↔
      IsUncut cs ∧ IsUncut ds ∧ ¬ (cs.getLast? = some ':' ∧ ds.head? = some ':') := by
  induction cs with
  | nil => simp
  | cons c cs ih =>
    rw [List.cons_append, isUncut_cons_iff, isUncut_cons_iff, ih]
    cases cs with
    | nil => simp [and_comm]
    | cons d cs => simp [and_assoc]

theorem splitAtColons_ne_nil (cs : List Char) : splitAtColons cs ≠ [] := by
  fun_induction splitAtColons cs with
  | case1 => simp
  | case2 => simp
  | case3 => simp
  | case4 c d cs _ _ =>
    cases splitAtColons (d :: cs) <;> simp [consToFirst]

theorem splitAtColons_eq_cons (cs : List Char)
    : ∃ piece pieces, splitAtColons cs = piece :: pieces :=
  List.exists_cons_of_ne_nil (splitAtColons_ne_nil cs)

theorem splitAtColons_cons {c : Char} (h : ¬ (c = ':' ∧ cs.head? = some ':'))
    : splitAtColons (c :: cs) = consToFirst c (splitAtColons cs) := by
  cases cs with
  | nil => rfl
  | cons d cs =>
    rw [splitAtColons, if_neg]
    simpa using h

theorem splitAtColons_of_isUncut (h : IsUncut cs) : splitAtColons cs = [cs] := by
  induction cs with
  | nil => rfl
  | cons c cs ih =>
    rw [isUncut_cons_iff] at h
    rw [splitAtColons_cons h.1, ih h.2]
    rfl

theorem splitAtColons_append {piece : List Char} (huncut : IsUncut piece)
    (hend : piece.getLast? ≠ some ':') (rest : List Char)
    : splitAtColons (piece ++ ':' :: ':' :: rest) = piece :: splitAtColons rest := by
  induction piece with
  | nil => rfl
  | cons c piece ih =>
    rw [isUncut_cons_iff] at huncut
    rw [List.cons_append, splitAtColons_cons, ih huncut.2]
    . rfl
    . cases piece with
      | nil => simp
      | cons d piece => rwa [List.getLast?_cons_cons] at hend
    . cases piece with
      | nil => simpa using hend
      | cons d piece => exact huncut.1

theorem isCutAtColons_splitAtColons (cs : List Char) : IsCutAtColons cs (splitAtColons cs) := by
  fun_induction splitAtColons cs with
  | case1 => exact .last isUncut_nil
  | case2 c => exact .last (by simp [isUncut_cons_iff])
  | case3 c d cs h ih =>
    obtain ⟨rfl, rfl⟩ := h
    exact @IsCutAtColons.more [] _ _ isUncut_nil (by simp) ih
  | case4 c d cs h ih =>
    generalize hpieces : splitAtColons (d :: cs) = pieces at ih ⊢
    generalize htext : d :: cs = text at ih ⊢
    have hhead : ¬ (c = ':' ∧ text.head? = some ':') := by
      rw [← htext]
      simpa using h
    cases ih with
    | last huncut => exact .last (isUncut_cons_iff.2 ⟨hhead, huncut⟩)
    | @more piece rest pieces huncut hend hrest =>
      refine @IsCutAtColons.more (c :: piece) _ _ (isUncut_cons_iff.2 ⟨?_, huncut⟩) ?_ hrest
      . cases piece with
        | nil => simp
        | cons e piece => exact hhead
      . cases piece with
        | nil => simpa using hhead
        | cons e piece => rwa [List.getLast?_cons_cons]

theorem isCutAtColons_iff {pieces : List (List Char)}
    : IsCutAtColons cs pieces ↔ pieces = splitAtColons cs := by
  constructor
  . intro h
    induction h with
    | last huncut => exact (splitAtColons_of_isUncut huncut).symm
    | more huncut hend _ ih => rw [splitAtColons_append huncut hend, ih]
  . rintro rfl
    apply isCutAtColons_splitAtColons

end Pieces

/-! ### Separators in front -/

def dropEmpty : List (List Char) → List (List Char)
  | [] :: piece :: pieces => dropEmpty (piece :: pieces)
  | pieces => pieces

theorem dropEmpty_cons {pieces : List (List Char)} (h : pieces ≠ [])
    : dropEmpty ([] :: pieces) = dropEmpty pieces := by
  cases pieces with
  | nil => contradiction
  | cons piece pieces => rw [dropEmpty]

theorem dropEmpty_of_ne_nil {piece : List Char} (h : piece ≠ []) (pieces : List (List Char))
    : dropEmpty (piece :: pieces) = piece :: pieces := by
  cases piece with
  | nil => contradiction
  | cons c piece => rw [dropEmpty]; simp

theorem splitAtColons_dropColons (cs : List Char)
    : splitAtColons (dropColons cs) = dropEmpty (splitAtColons cs) := by
  fun_induction dropColons cs with
  | case1 cs ih => rw [ih, splitAtColons, if_pos ⟨rfl, rfl⟩, dropEmpty_cons (splitAtColons_ne_nil cs)]
  | case2 cs h =>
    cases cs with
    | nil => rfl
    | cons c cs =>
      rw [splitAtColons_cons]
      . obtain ⟨piece, pieces, hpieces⟩ := splitAtColons_eq_cons cs
        rw [hpieces, consToFirst, dropEmpty_of_ne_nil (by simp)]
      . rintro ⟨rfl, hhead⟩
        obtain ⟨cs, rfl⟩ := List.head?_eq_some_iff.1 hhead
        exact h cs rfl

theorem unseparates_dropColons (cs : List Char) : Unseparates cs (dropColons cs) := by
  fun_induction dropColons cs with
  | case1 cs ih =>
    obtain ⟨⟨count, hcount⟩, hstarts⟩ := ih
    refine ⟨⟨count + 1, ?_⟩, hstarts⟩
    rw [List.replicate_succ, List.flatten_cons, List.append_assoc, ← hcount]
    rfl
  | case2 cs h =>
    refine ⟨⟨0, rfl⟩, ?_⟩
    rintro ⟨rest, hrest⟩
    exact h rest hrest.symm

theorem Unseparates.eq_dropColons {text body : List Char} (h : Unseparates text body)
    : dropColons text = body := by
  obtain ⟨⟨count, rfl⟩, hstarts⟩ := h
  induction count with
  | zero =>
    rw [List.replicate_zero, List.flatten_nil, List.nil_append, dropColons]
    rintro cs rfl
    exact hstarts ⟨cs, rfl⟩
  | succ count ih =>
    rw [List.replicate_succ, List.flatten_cons, List.append_assoc]
    exact ih

/-! ### Blanks at the ends -/

theorem ne_colon_of_isBlank {c : Char} (h : isBlank c = true) : c ≠ ':' := by
  rintro rfl
  contradiction

theorem splitAtColons_dropWhile (cs : List Char)
    : splitAtColons (cs.dropWhile isBlank) = (splitAtColons cs).modifyHead (·.dropWhile isBlank) := by
  induction cs with
  | nil => rfl
  | cons c cs ih =>
    by_cases hblank : isBlank c = true
    . have hc := ne_colon_of_isBlank hblank
      rw [List.dropWhile_cons_of_pos hblank, ih, splitAtColons_cons (by simp [hc])]
      obtain ⟨piece, pieces, hpieces⟩ := splitAtColons_eq_cons cs
      simp [hpieces, consToFirst, hblank]
    . rw [List.dropWhile_cons_of_neg hblank]
      by_cases hcut : c = ':' ∧ cs.head? = some ':'
      . obtain ⟨rfl, hhead⟩ := hcut
        obtain ⟨cs, rfl⟩ := List.head?_eq_some_iff.1 hhead
        rfl
      . obtain ⟨piece, pieces, hpieces⟩ := splitAtColons_eq_cons cs
        rw [splitAtColons_cons hcut, hpieces]
        simp [consToFirst, hblank]

def appendToLast (back : List Char) : List (List Char) → List (List Char)
  | [] => []
  | [piece] => [piece ++ back]
  | piece :: next :: pieces => piece :: appendToLast back (next :: pieces)

theorem appendToLast_cons (back piece : List Char) {pieces : List (List Char)} (h : pieces ≠ [])
    : appendToLast back (piece :: pieces) = piece :: appendToLast back pieces := by
  cases pieces with
  | nil => contradiction
  | cons next pieces => rfl

theorem consToFirst_appendToLast (c : Char) (back : List Char) {pieces : List (List Char)} (h : pieces ≠ [])
    : consToFirst c (appendToLast back pieces) = appendToLast back (consToFirst c pieces) := by
  match pieces with
  | [] => contradiction
  | [piece] => rfl
  | piece :: next :: pieces => rfl

section Back

variable {back : List Char}

theorem isUncut_blanks (hback : ∀ c ∈ back, isBlank c = true) : IsUncut back := by
  rintro ⟨before, after, rfl⟩
  exact ne_colon_of_isBlank (hback ':' (by simp)) rfl

theorem head?_ne_of_blanks (hback : ∀ c ∈ back, isBlank c = true) : back.head? ≠ some ':' := by
  intro hcolon
  exact ne_colon_of_isBlank (hback ':' (List.mem_of_head? hcolon)) rfl

theorem splitAtColons_append_blanks (hback : ∀ c ∈ back, isBlank c = true) (cs : List Char)
    : splitAtColons (cs ++ back) = appendToLast back (splitAtColons cs) := by
  have hhead := head?_ne_of_blanks hback
  fun_induction splitAtColons cs with
  | case1 => exact splitAtColons_of_isUncut (isUncut_blanks hback)
  | case2 c =>
    rw [List.singleton_append, splitAtColons_cons (by simp [hhead]),
      splitAtColons_of_isUncut (isUncut_blanks hback)]
    rfl
  | case3 c d cs h ih =>
    rw [List.cons_append, List.cons_append, splitAtColons, if_pos h, ih,
      appendToLast_cons _ _ (splitAtColons_ne_nil cs)]
  | case4 c d cs h ih =>
    rw [List.cons_append, splitAtColons_cons (by simpa using h), ih,
      consToFirst_appendToLast _ _ (splitAtColons_ne_nil _)]

end Back

theorem appendToLast_ne_nil (back : List Char) {pieces : List (List Char)} (h : pieces ≠ [])
    : appendToLast back pieces ≠ [] := by
  match pieces with
  | [] => contradiction
  | [piece] => simp [appendToLast]
  | piece :: next :: pieces => simp [appendToLast]

theorem map_trim_appendToLast {back : List Char} (hback : ∀ c ∈ back, isBlank c = true)
    (pieces : List (List Char)) : (appendToLast back pieces).map trim = pieces.map trim := by
  match pieces with
  | [] => rfl
  | [piece] => simp [appendToLast, trim_append_blanks hback]
  | piece :: next :: pieces =>
    rw [appendToLast, List.map_cons, map_trim_appendToLast hback, ← List.map_cons]

theorem map_trim_dropEmpty_appendToLast {back : List Char} (hback : ∀ c ∈ back, isBlank c = true)
    (pieces : List (List Char))
    : (dropEmpty (appendToLast back pieces)).map trim = (dropEmpty pieces).map trim := by
  match pieces with
  | [] => rfl
  | [piece] => simp [appendToLast, dropEmpty, trim_append_blanks hback]
  | [] :: next :: pieces =>
    rw [appendToLast_cons _ _ (by simp), dropEmpty_cons (appendToLast_ne_nil _ (by simp)), dropEmpty]
    exact map_trim_dropEmpty_appendToLast hback (next :: pieces)
  | (c :: piece) :: next :: pieces =>
    rw [appendToLast_cons _ _ (by simp), dropEmpty_of_ne_nil (by simp), dropEmpty_of_ne_nil (by simp),
      List.map_cons, map_trim_appendToLast hback, ← List.map_cons]

/-! ### Blanks around pieces -/

inductive IsPadded : List Char → List Char → Prop where
  | empty : IsPadded [] []
  | blanks {front piece back : List Char} (hne : piece ≠ []) (hfront : ∀ c ∈ front, isBlank c = true)
      (hback : ∀ c ∈ back, isBlank c = true) : IsPadded piece (front ++ piece ++ back)

structure TrimsAlike (piece other : List Char) : Prop where
  eq_nil_iff : other = [] ↔ piece = []
  trim_eq : trim other = trim piece

namespace IsPadded

variable {piece padded : List Char}

theorem trimsAlike (h : IsPadded piece padded) : TrimsAlike piece padded := by
  cases h with
  | empty => exact ⟨.rfl, rfl⟩
  | blanks hne hfront hback =>
    constructor
    . simp [hne]
    . rw [trim_append_blanks hback, trim_blanks_append hfront]

theorem dropWhile_trimsAlike (h : IsPadded piece padded)
    : TrimsAlike (piece.dropWhile isBlank) (padded.dropWhile isBlank) := by
  constructor
  . simp only [List.dropWhile_eq_nil_iff]
    cases h with
    | empty => rfl
    | blanks hne hfront hback =>
      simp only [List.mem_append]
      constructor
      . intro hall c hc
        exact hall c (.inl (.inr hc))
      . rintro hall c ((hc | hc) | hc)
        . exact hfront c hc
        . exact hall c hc
        . exact hback c hc
  . rw [trim_dropWhile, trim_dropWhile, h.trimsAlike.trim_eq]

theorem isUncut (h : IsPadded piece padded) (huncut : IsUncut piece) : IsUncut padded := by
  cases h with
  | empty => exact huncut
  | @blanks front _ back hne hfront hback =>
    have hlast : front.getLast? ≠ some ':' := by
      intro hcolon
      exact ne_colon_of_isBlank (hfront ':' (List.mem_of_getLast? hcolon)) rfl
    rw [isUncut_append_iff, isUncut_append_iff]
    refine ⟨⟨isUncut_blanks hfront, huncut, ?_⟩, isUncut_blanks hback, ?_⟩
    . simp [hlast]
    . simp [head?_ne_of_blanks hback]

theorem getLast?_ne (h : IsPadded piece padded) (hend : piece.getLast? ≠ some ':')
    : padded.getLast? ≠ some ':' := by
  cases h with
  | empty => exact hend
  | @blanks front _ back hne hfront hback =>
    rw [List.getLast?_append]
    cases hlast : back.getLast? with
    | none =>
      rw [Option.none_or, List.getLast?_append_of_ne_nil _ hne]
      exact hend
    | some c =>
      have hc := ne_colon_of_isBlank (hback c (List.mem_of_getLast? hlast))
      simp [hc]

end IsPadded

section Padded

variable {pieces padded : List (List Char)}

theorem map_trim_dropEmpty_congr (h : List.Forall₂ TrimsAlike pieces padded)
    : (dropEmpty padded).map trim = (dropEmpty pieces).map trim := by
  have hmap {ps qs : List (List Char)} (hall : List.Forall₂ TrimsAlike ps qs) : qs.map trim = ps.map trim := by
    induction hall with
    | nil => rfl
    | cons halike _ ih => rw [List.map_cons, List.map_cons, halike.trim_eq, ih]
  induction h with
  | nil => rfl
  | @cons piece other pieces others halike hrest ih =>
    by_cases hempty : piece = []
    . have hother := halike.eq_nil_iff.2 hempty
      subst hempty hother
      cases hrest with
      | nil => rfl
      | cons hnext hrest =>
        rw [dropEmpty, dropEmpty]
        exact ih
    . have hother : other ≠ [] := fun hnil => hempty (halike.eq_nil_iff.1 hnil)
      rw [dropEmpty_of_ne_nil hempty, dropEmpty_of_ne_nil hother]
      exact hmap (.cons halike hrest)

theorem map_trim_dropEmpty_padded (h : List.Forall₂ IsPadded pieces padded)
    : (dropEmpty (padded.modifyHead (·.dropWhile isBlank))).map trim
        =
      (dropEmpty (pieces.modifyHead (·.dropWhile isBlank))).map trim := by
  cases h with
  | nil => rfl
  | cons hfirst hrest =>
    apply map_trim_dropEmpty_congr
    exact .cons hfirst.dropWhile_trimsAlike (hrest.imp fun _ _ hpadded => hpadded.trimsAlike)

theorem IsCutAtColons.pad {cs : List Char} (hcut : IsCutAtColons cs pieces)
    (h : List.Forall₂ IsPadded pieces padded)
    : IsCutAtColons ([':', ':'].intercalate padded) padded := by
  induction hcut generalizing padded with
  | last huncut =>
    obtain ⟨piece, _, hpiece, hnil, rfl⟩ := List.forall₂_cons_left_iff.1 h
    cases hnil
    rw [List.intercalate_singleton]
    exact .last (hpiece.isUncut huncut)
  | more huncut hend hrest ih =>
    obtain ⟨piece, others, hpiece, hothers, rfl⟩ := List.forall₂_cons_left_iff.1 h
    have hne : others ≠ [] := by
      rintro rfl
      cases hothers
      cases hrest
    rw [List.intercalate_cons_of_ne_nil hne, List.append_assoc]
    exact .more (hpiece.isUncut huncut) (hpiece.getLast?_ne hend) (ih hothers)

end Padded

end PatternLint.Text
