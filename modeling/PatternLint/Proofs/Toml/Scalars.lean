import Mathlib.Algebra.BigOperators.Group.List.Basic
import Mathlib.Algebra.Order.Group.Multiset
import PatternLint.Toml.Value

/-!
This module contains the scalars in values and the condition that no table has a key twice, with the laws of
what becomes of both when a value gets another part.
-/

namespace PatternLint.Toml

inductive Scalar where
  | text (s : String)
  | integer (n : Int)
  | float (x : Binary64)
  | boolean (b : Bool)
  | moment (s : String)
  deriving DecidableEq, Repr

namespace Value

mutual

def scalars : Value → Multiset Scalar
  | text s => {.text s}
  | integer n => {.integer n}
  | float x => {.float x}
  | boolean b => {.boolean b}
  | moment s => {.moment s}
  | array items => scalarsOfItems items
  | table entries => scalarsOfEntries entries

def scalarsOfItems : List Value → Multiset Scalar
  | [] => 0
  | item :: items => item.scalars + scalarsOfItems items

def scalarsOfEntries : List (String × Value) → Multiset Scalar
  | [] => 0
  | (_, v) :: entries => v.scalars + scalarsOfEntries entries

end

mutual

def IsDistinct : Value → Prop
  | array items => AreItemsDistinct items
  | table entries => (entries.map Prod.fst).Nodup ∧ AreEntriesDistinct entries
  | text _ | integer _ | float _ | boolean _ | moment _ => True

def AreItemsDistinct : List Value → Prop
  | [] => True
  | item :: items => item.IsDistinct ∧ AreItemsDistinct items

def AreEntriesDistinct : List (String × Value) → Prop
  | [] => True
  | (_, v) :: entries => v.IsDistinct ∧ AreEntriesDistinct entries

end

theorem scalars_array (items : List Value) : (array items).scalars = (items.map scalars).sum := by
  rw [scalars]
  induction items with
  | nil => rfl
  | cons item items ih => rw [scalarsOfItems, ih, List.map_cons, List.sum_cons]

theorem scalars_table (entries : List (String × Value))
    : (table entries).scalars = (entries.map fun entry => entry.2.scalars).sum := by
  rw [scalars]
  induction entries with
  | nil => rfl
  | cons entry entries ih => rw [scalarsOfEntries, ih, List.map_cons, List.sum_cons]

theorem isDistinct_array_iff {items : List Value} : (array items).IsDistinct ↔ ∀ item ∈ items, item.IsDistinct := by
  rw [IsDistinct]
  induction items with
  | nil => simp [AreItemsDistinct]
  | cons item items ih => rw [AreItemsDistinct, ih, List.forall_mem_cons]

theorem isDistinct_table_iff {entries : List (String × Value)}
    : (table entries).IsDistinct ↔ (entries.map Prod.fst).Nodup ∧ ∀ entry ∈ entries, entry.2.IsDistinct := by
  rw [IsDistinct]
  apply and_congr_right'
  induction entries with
  | nil => simp [AreEntriesDistinct]
  | cons entry entries ih => rw [AreEntriesDistinct, ih, List.forall_mem_cons]

def Grows (added : Multiset Scalar) (v w : Value) : Prop :=
  v.IsDistinct → w.IsDistinct ∧ w.scalars = v.scalars + added

section Grows

theorem Grows.refl (v : Value) : Grows 0 v v := by
  intro h
  exact ⟨h, (add_zero _).symm⟩

theorem Grows.trans {added more : Multiset Scalar} {u v w : Value} (h : Grows added u v) (h' : Grows more v w)
    : Grows (added + more) u w := by
  intro hu
  obtain ⟨hv, hadded⟩ := h hu
  obtain ⟨hw, hmore⟩ := h' hv
  refine ⟨hw, ?_⟩
  rw [hmore, hadded, add_assoc]

theorem grows_of_perm {entries others : List (String × Value)} (h : entries.Perm others)
    : Grows 0 (table entries) (table others) := by
  intro hentries
  rw [isDistinct_table_iff] at hentries
  constructor
  . rw [isDistinct_table_iff]
    refine ⟨(h.map Prod.fst).nodup_iff.1 hentries.1, ?_⟩
    intro entry hentry
    exact hentries.2 entry (h.mem_iff.2 hentry)
  . rw [scalars_table, scalars_table, add_zero, (h.map fun entry => entry.2.scalars).sum_eq]

theorem grows_entry {added : Multiset Scalar} {v w : Value} (h : Grows added v w) (key : String)
    (before after : List (String × Value))
    : Grows added (table (before ++ (key, v) :: after)) (table (before ++ (key, w) :: after)) := by
  intro hentries
  rw [isDistinct_table_iff, List.forall_mem_append, List.forall_mem_cons] at hentries
  obtain ⟨hkeys, hbefore, hv, hafter⟩ := hentries
  obtain ⟨hw, hscalars⟩ := h hv
  constructor
  . rw [isDistinct_table_iff, List.forall_mem_append, List.forall_mem_cons]
    refine ⟨?_, hbefore, hw, hafter⟩
    simpa using hkeys
  . simp only [scalars_table, List.map_append, List.map_cons, List.sum_append, List.sum_cons]
    rw [hscalars]
    ac_rfl

theorem grows_last_item {added : Multiset Scalar} {v w : Value} (h : Grows added v w) (before : List Value)
    : Grows added (array (before ++ [v])) (array (before ++ [w])) := by
  intro hitems
  rw [isDistinct_array_iff, List.forall_mem_append, List.forall_mem_singleton] at hitems
  obtain ⟨hw, hscalars⟩ := h hitems.2
  constructor
  . rw [isDistinct_array_iff, List.forall_mem_append, List.forall_mem_singleton]
    exact ⟨hitems.1, hw⟩
  . simp only [scalars_array, List.map_append, List.map_singleton, List.sum_append, List.sum_singleton]
    rw [hscalars, add_assoc]

theorem grows_new_entry {entries : List (String × Value)} {key : String} (hkey : key ∉ entries.map Prod.fst)
    {v : Value} (hv : v.IsDistinct) : Grows v.scalars (table entries) (table (entries ++ [(key, v)])) := by
  intro hentries
  rw [isDistinct_table_iff] at hentries
  constructor
  . rw [isDistinct_table_iff, List.forall_mem_append, List.forall_mem_singleton]
    refine ⟨?_, hentries.2, hv⟩
    rw [List.map_append]
    exact hentries.1.append (List.nodup_singleton key) (by simpa using hkey)
  . simp only [scalars_table, List.map_append, List.map_singleton, List.sum_append, List.sum_singleton]

theorem grows_new_item {v : Value} (hv : v.IsDistinct) (items : List Value)
    : Grows v.scalars (array items) (array (items ++ [v])) := by
  intro hitems
  rw [isDistinct_array_iff] at hitems
  constructor
  . rw [isDistinct_array_iff, List.forall_mem_append, List.forall_mem_singleton]
    exact ⟨hitems, hv⟩
  . simp only [scalars_array, List.map_append, List.map_singleton, List.sum_append, List.sum_singleton]

end Grows

end Value

end PatternLint.Toml
