import Mathlib.Data.List.Nodup

/-!
This module contains the laws of lists that are exact: they have one element for each index at which
something stands, and no others.
-/

namespace PatternLint

variable {ι κ α β γ τ : Type}

/--
A list has, in any order, the value `f a` once for each index `i` at which `R i a` holds, and no
other elements.
-/
def ListsOnce (R : ι → α → Prop) (f : α → β) (l : List β) : Prop :=
  ∃ entries : List (ι × α),
    (entries.map Prod.fst).Nodup
      ∧ (∀ i a, (i, a) ∈ entries ↔ R i a)
      ∧ l.Perm (entries.map fun entry => f entry.2)

namespace ListsOnce

variable {R S : ι → α → Prop} {f : α → β} {l m : List β}

theorem congr (listed : ListsOnce R f l) (h : ∀ i a, S i a ↔ R i a) : ListsOnce S f l := by
  obtain ⟨entries, distinct, complete, same⟩ := listed
  exact ⟨entries, distinct, fun i a => (complete i a).trans (h i a).symm, same⟩

theorem perm (listed : ListsOnce R f l) (h : m.Perm l) : ListsOnce R f m := by
  obtain ⟨entries, distinct, complete, same⟩ := listed
  exact ⟨entries, distinct, complete, h.trans same⟩

theorem nil (h : ∀ i a, ¬R i a) : ListsOnce R f [] :=
  ⟨[], by simp, by simpa using h, .refl _⟩

theorem singleton {j : ι} {b : α} (h : ∀ i a, R i a ↔ i = j ∧ a = b) : ListsOnce R f [f b] :=
  ⟨[(j, b)], by simp, by simpa using fun i a => (h i a).symm, .refl _⟩

theorem append (first : ListsOnce R f l) (second : ListsOnce S f m)
    (apart : ∀ i a b, R i a → ¬S i b)
    : ListsOnce (fun i a => R i a ∨ S i a) f (l ++ m) := by
  obtain ⟨entries, distinct, complete, same⟩ := first
  obtain ⟨others, distinct', complete', same'⟩ := second
  refine ⟨entries ++ others, ?_, ?_, ?_⟩
  . rw [List.map_append]
    apply distinct.append distinct'
    intro i hi hi'
    obtain ⟨⟨_, a⟩, ha, rfl⟩ := List.mem_map.mp hi
    obtain ⟨⟨_, b⟩, hb, rfl⟩ := List.mem_map.mp hi'
    exact apart _ a b ((complete _ a).mp ha) ((complete' _ b).mp hb)
  . intro i a
    rw [List.mem_append, complete, complete']
  . rw [List.map_append]
    exact same.append same'

theorem map (g : β → γ) (listed : ListsOnce R f l)
    : ListsOnce R (fun a => g (f a)) (l.map g) := by
  obtain ⟨entries, distinct, complete, same⟩ := listed
  refine ⟨entries, distinct, complete, ?_⟩
  have := same.map g
  rwa [List.map_map] at this

theorem filter (q : β → Bool) (listed : ListsOnce R f l)
    : ListsOnce (fun i a => R i a ∧ q (f a) = true) f (l.filter q) := by
  obtain ⟨entries, distinct, complete, same⟩ := listed
  refine ⟨entries.filter fun entry => q (f entry.2), ?_, ?_, ?_⟩
  . exact distinct.sublist (List.filter_sublist.map _)
  . intro i a
    rw [List.mem_filter, complete]
  . have := same.filter q
    rwa [List.filter_map] at this

theorem reindex (e : ι → κ) (injective : ∀ i j, e i = e j → i = j) (listed : ListsOnce R f l)
    : ListsOnce (fun k a => ∃ i, k = e i ∧ R i a) f l := by
  obtain ⟨entries, distinct, complete, same⟩ := listed
  refine ⟨entries.map fun entry => (e entry.1, entry.2), ?_, ?_, ?_⟩
  . have := distinct.map (f := e) fun i j => injective i j
    rwa [List.map_map] at this ⊢
  . intro k a
    simp only [List.mem_map, Prod.exists, Prod.mk.injEq, complete]
    constructor
    . rintro ⟨i, b, holds, rfl, rfl⟩
      exact ⟨i, rfl, holds⟩
    . rintro ⟨i, rfl, holds⟩
      exact ⟨i, a, holds, rfl, rfl⟩
  . rwa [List.map_map]

theorem image (g : α → γ) {f : γ → β} (listed : ListsOnce R (fun a => f (g a)) l)
    : ListsOnce (fun i c => ∃ a, R i a ∧ c = g a) f l := by
  obtain ⟨entries, distinct, complete, same⟩ := listed
  refine ⟨entries.map fun entry => (entry.1, g entry.2), ?_, ?_, ?_⟩
  . rwa [List.map_map]
  . intro i c
    simp only [List.mem_map, Prod.exists, Prod.mk.injEq, complete]
    constructor
    . rintro ⟨j, a, holds, rfl, rfl⟩
      exact ⟨a, holds, rfl⟩
    . rintro ⟨a, holds, rfl⟩
      exact ⟨i, a, holds, rfl, rfl⟩
  . rwa [List.map_map]

theorem eq_of_index (listed : ListsOnce R f l) {i : ι} {a b : α} (h : R i a) (h' : R i b) : a = b := by
  obtain ⟨entries, distinct, complete, -⟩ := listed
  have := List.inj_on_of_nodup_map distinct ((complete i a).mpr h) ((complete i b).mpr h') rfl
  exact congrArg Prod.snd this

theorem mem_iff (listed : ListsOnce R f l) {b : β} : b ∈ l ↔ ∃ i a, R i a ∧ b = f a := by
  obtain ⟨entries, -, complete, same⟩ := listed
  simp only [same.mem_iff, List.mem_map, Prod.exists, complete]
  simp only [eq_comm]

theorem perm_of_iff (listed : ListsOnce R f l) (listed' : ListsOnce S f m) (h : ∀ i a, R i a ↔ S i a)
    : l.Perm m := by
  obtain ⟨entries, distinct, complete, same⟩ := listed
  obtain ⟨others, distinct', complete', same'⟩ := listed'
  have samePairs : entries.Perm others := by
    rw [List.perm_ext_iff_of_nodup distinct.of_map distinct'.of_map]
    rintro ⟨i, a⟩
    rw [complete, complete', h]
  exact same.trans ((samePairs.map _).trans same'.symm)

end ListsOnce

def Among (R : τ → ι → α → Prop) (ts : List τ) (i : Nat × ι) (a : α) : Prop :=
  ∃ t, ts[i.1]? = some t ∧ R t i.2 a

theorem among_and_iff {R : τ → ι → α → Prop} {Q : α → Prop} {ts : List τ} {i : Nat × ι} {a : α}
    : Among (fun t i a => R t i a ∧ Q a) ts i a ↔ Among R ts i a ∧ Q a := by
  simp only [Among, ← and_assoc, exists_and_right]

namespace ListsOnce

variable {R : τ → ι → α → Prop} {f : α → β}

theorem among_nil : ListsOnce (Among R []) f [] :=
  .nil (by simp [Among])

theorem among_cons {t : τ} {ts : List τ} {l m : List β} (first : ListsOnce (R t) f l)
    (rest : ListsOnce (Among R ts) f m)
    : ListsOnce (Among R (t :: ts)) f (l ++ m) := by
  have first := first.reindex (fun i => (0, i)) (by simp)
  have rest := rest.reindex (fun i => (i.1 + 1, i.2)) (by simp [Prod.ext_iff])
  refine (first.append rest ?_).congr ?_
  . rintro _ a b ⟨i, rfl, -⟩ ⟨j, h, -⟩
    simp at h
  . rintro ⟨number, i⟩ a
    cases number with
    | zero => simp [Among]
    | succ number => simp [Among]

theorem among_flatMap {g : τ → List β} (h : ∀ t, ListsOnce (R t) f (g t)) (ts : List τ)
    : ListsOnce (Among R ts) f (ts.flatMap g) := by
  induction ts with
  | nil => exact among_nil
  | cons t ts ih =>
    rw [List.flatMap_cons]
    exact among_cons (h t) ih

end ListsOnce

end PatternLint
