import Mathlib.Data.List.Sort
import PatternLint.SortedMap

/-!
This module contains the laws of sorted maps: what is found at a key after an entry is added, and
that a map is determined by what is found in it.
-/

namespace PatternLint.SortedMap

variable {κ α : Type} [Ord κ]

@[simp]
theorem find?_empty (k : κ) : (empty : SortedMap κ α).find? k = none := by
  rfl

def mapValues {β : Type} (f : α → β) (m : SortedMap κ α) : SortedMap κ β :=
  ⟨m.toList.map fun entry => (entry.1, f entry.2), List.pairwise_map.2 m.sorted⟩

theorem find?_mapValues {β : Type} (f : α → β) (m : SortedMap κ α) (k : κ)
    : (m.mapValues f).find? k = (m.find? k).map f := by
  unfold find? mapValues
  dsimp
  rw [List.find?_map, Option.map_map, Option.map_map]
  rfl

theorem mapValues_insertEntry {β : Type} (f : α → β) (k : κ) (a : α) (entries : List (κ × α))
    : (insertEntry k a entries).map (fun entry => (entry.1, f entry.2))
        =
      insertEntry k (f a) (entries.map fun entry => (entry.1, f entry.2)) := by
  induction entries with
  | nil => rfl
  | cons entry entries ih =>
    rw [List.map_cons, insertEntry, insertEntry]
    cases compare k entry.1 with
    | lt => rfl
    | eq => rfl
    | gt => exact congrArg _ ih

variable [Std.LawfulEqOrd κ]

theorem compare_beq_self (k : κ) : (compare k k == .eq) = true := by
  rw [beq_iff_eq]
  exact Std.ReflCmp.compare_self

theorem compare_beq_of_ne {k k' : κ} (h : k ≠ k')
    : ¬ (compare k k' == .eq) = true := by
  rw [beq_iff_eq]
  intro heq
  exact h (Std.LawfulEqCmp.eq_of_compare heq)

theorem find?_insertEntry_self (k : κ) (a : α) (entries : List (κ × α))
    : (insertEntry k a entries).find? (fun entry => compare entry.1 k == .eq) = some (k, a) := by
  have hself := compare_beq_self k
  induction entries with
  | nil =>
    rw [insertEntry, List.find?_cons_of_pos]
    exact hself
  | cons entry entries ih =>
    rw [insertEntry]
    split
    . rw [List.find?_cons_of_pos]
      exact hself
    . rw [List.find?_cons_of_pos]
      exact hself
    . next hgt =>
      rw [List.find?_cons_of_neg, ih]
      apply compare_beq_of_ne
      intro heq
      rw [heq, beq_iff_eq.1 hself] at hgt
      contradiction

theorem find?_insertEntry_of_ne {k k' : κ} (h : k ≠ k') (a : α) (entries : List (κ × α))
    : (insertEntry k a entries).find? (fun entry => compare entry.1 k' == .eq)
        =
      entries.find? fun entry => compare entry.1 k' == .eq := by
  have hother := compare_beq_of_ne h
  induction entries with
  | nil =>
    rw [insertEntry, List.find?_cons_of_neg]
    exact hother
  | cons entry entries ih =>
    rw [insertEntry]
    split
    . rw [List.find?_cons_of_neg]
      exact hother
    . next heq =>
      rw [List.find?_cons_of_neg, List.find?_cons_of_neg]
      . rw [← Std.LawfulEqCmp.eq_of_compare heq]
        exact hother
      . exact hother
    . rw [List.find?_cons, List.find?_cons, ih]

theorem find?_eq_some_of_nodup {β : Type} (key : β → κ) {entries : List β} {entry : β}
    (hnodup : (entries.map key).Nodup) (h : entry ∈ entries)
    : entries.find? (fun other => compare (key other) (key entry) == .eq) = some entry := by
  induction entries with
  | nil => contradiction
  | cons first entries ih =>
    rw [List.map_cons, List.nodup_cons] at hnodup
    rcases List.mem_cons.1 h with rfl | h
    . rw [List.find?_cons_of_pos]
      apply compare_beq_self
    . rw [List.find?_cons_of_neg, ih hnodup.2 h]
      apply compare_beq_of_ne
      intro heq
      apply hnodup.1
      rw [heq]
      exact List.mem_map_of_mem h

theorem nodup_keys (m : SortedMap κ α) : (m.toList.map Prod.fst).Nodup := by
  rw [List.Nodup, List.pairwise_map]
  apply m.sorted.imp
  intro entry other hlt heq
  rw [heq, beq_iff_eq.1 (compare_beq_self other.1)] at hlt
  contradiction

theorem mem_toList_iff {m : SortedMap κ α} {k : κ} {a : α}
    : (k, a) ∈ m.toList ↔ m.find? k = some a := by
  constructor
  . intro h
    unfold find?
    rw [find?_eq_some_of_nodup Prod.fst m.nodup_keys h]
    rfl
  . intro h
    unfold find? at h
    rw [Option.map_eq_some_iff] at h
    obtain ⟨entry, hentry, rfl⟩ := h
    have hkey := List.find?_some hentry
    rw [beq_iff_eq] at hkey
    rw [← Std.LawfulEqCmp.eq_of_compare hkey]
    exact List.mem_of_find?_eq_some hentry

theorem find?_filter (p : κ → α → Bool) (m : SortedMap κ α) (k : κ)
    : (m.filter p).find? k = (m.find? k).filter (p k) := by
  apply Option.ext
  intro a
  rw [← mem_toList_iff, Option.filter_eq_some_iff, ← mem_toList_iff]
  unfold filter
  rw [List.mem_filter]

section Insert

variable [Std.TransOrd κ]

theorem mapValues_insert {β : Type} (f : α → β) (m : SortedMap κ α) (k : κ) (a : α)
    : (m.insert k a).mapValues f = (m.mapValues f).insert k (f a) := by
  unfold insert mapValues
  simp only [mk.injEq]
  apply mapValues_insertEntry

theorem find?_insert_self (m : SortedMap κ α) (k : κ) (a : α)
    : (m.insert k a).find? k = some a := by
  unfold find? insert
  dsimp
  rw [find?_insertEntry_self]
  rfl

theorem find?_insert_of_ne {k k' : κ} (h : k ≠ k') (m : SortedMap κ α) (a : α)
    : (m.insert k a).find? k' = m.find? k' := by
  unfold find? insert
  dsimp
  rw [find?_insertEntry_of_ne h]

theorem contains_insertNew (m : SortedMap κ α) (k k' : κ) (a : α)
    : (m.insertNew k a).contains k' = true ↔ k = k' ∨ m.contains k' = true := by
  unfold insertNew
  by_cases hkey : k = k'
  . subst hkey
    split
    . next h => simp [h]
    . unfold contains
      rw [find?_insert_self]
      simp
  . split
    . simp [hkey]
    . unfold contains
      rw [find?_insert_of_ne hkey]
      simp [hkey]

theorem find?_foldl_insert (key : α → κ) {entries : List α} (hnodup : (entries.map key).Nodup)
    (m : SortedMap κ α) (k : κ)
    : (entries.foldl (fun table entry => table.insert (key entry) entry) m).find? k
        =
      (entries.find? fun entry => compare (key entry) k == .eq).or (m.find? k) := by
  induction entries generalizing m with
  | nil => simp
  | cons entry entries ih =>
    rw [List.map_cons, List.nodup_cons] at hnodup
    rw [List.foldl_cons, ih hnodup.2]
    by_cases hkey : key entry = k
    . -- no other entry has the key of the first one
      have hnone : entries.find? (fun entry => compare (key entry) k == .eq) = none := by
        rw [List.find?_eq_none]
        intro other hother
        apply compare_beq_of_ne
        intro heq
        apply hnodup.1
        rw [hkey, ← heq]
        exact List.mem_map_of_mem hother
      rw [hnone, List.find?_cons_of_pos, hkey, find?_insert_self]
      . rfl
      . rw [hkey]
        exact compare_beq_self k
    . rw [List.find?_cons_of_neg, find?_insert_of_ne hkey]
      exact compare_beq_of_ne hkey

theorem find?_foldl_insert_filter [DecidableEq κ] (key : α → κ) (entries : List α)
    {m other : SortedMap κ α} {k : κ} (h : m.find? k = other.find? k)
    : (entries.foldl (fun table entry => table.insert (key entry) entry) m).find? k
        =
      ((entries.filter fun entry => key entry = k).foldl
        (fun table entry => table.insert (key entry) entry) other).find? k := by
  induction entries generalizing m other with
  | nil => exact h
  | cons entry entries ih =>
    rw [List.foldl_cons, List.filter_cons]
    by_cases hkey : key entry = k
    . rw [if_pos (by simp [hkey]), List.foldl_cons]
      apply ih
      rw [hkey, find?_insert_self, find?_insert_self]
    . rw [if_neg (by simp [hkey])]
      apply ih
      rw [find?_insert_of_ne hkey, h]

theorem eq_of_find?_eq {m other : SortedMap κ α} (h : ∀ k, m.find? k = other.find? k)
    : m = other := by
  have hirrefl : Std.Irrefl fun a b : κ × α => compare a.1 b.1 = .lt := by
    constructor
    intro entry hlt
    rw [beq_iff_eq.1 (compare_beq_self entry.1)] at hlt
    contradiction
  have hantisymm : Std.Antisymm fun a b : κ × α => compare a.1 b.1 = .lt := by
    constructor
    intro entry other hlt hgt
    rw [Std.OrientedCmp.gt_iff_lt.2 hlt] at hgt
    contradiction
  have hentries : m.toList = other.toList := by
    apply List.Pairwise.eq_of_mem_iff m.sorted other.sorted
    rintro ⟨k, a⟩
    rw [mem_toList_iff, mem_toList_iff, h]
  cases m
  cases other
  dsimp at hentries
  subst hentries
  rfl

theorem find?_insertNew [DecidableEq κ] (m : SortedMap κ α) (k k' : κ) (a : α)
    : (m.insertNew k a).find? k' = (m.find? k').or (if k = k' then some a else none) := by
  unfold insertNew contains
  by_cases hkey : k = k'
  . subst hkey
    rw [if_pos rfl]
    cases hfound : m.find? k with
    | some other => simp [hfound]
    | none =>
      rw [if_neg (by simp), find?_insert_self]
      rfl
  . rw [if_neg hkey, Option.or_none]
    split
    . rfl
    . rw [find?_insert_of_ne hkey]

end Insert

end PatternLint.SortedMap
