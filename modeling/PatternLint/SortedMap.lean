/-!
This module contains maps whose entries are kept in the order of their keys, each key once. Two of
them with the same entries are equal, whatever the order of insertion was.
-/

namespace PatternLint

structure SortedMap (κ α : Type) [Ord κ] where
  toList : List (κ × α)
  sorted : toList.Pairwise fun a b => compare a.1 b.1 = .lt

namespace SortedMap

variable {κ α : Type} [Ord κ]

def empty : SortedMap κ α :=
  ⟨[], .nil⟩

instance : Inhabited (SortedMap κ α) :=
  ⟨empty⟩

def find? (m : SortedMap κ α) (k : κ) : Option α :=
  (m.toList.find? fun entry => compare entry.1 k == .eq).map Prod.snd

def contains (m : SortedMap κ α) (k : κ) : Bool :=
  (m.find? k).isSome

def values (m : SortedMap κ α) : List α :=
  m.toList.map Prod.snd

def keys (m : SortedMap κ α) : List κ :=
  m.toList.map Prod.fst

def size (m : SortedMap κ α) : Nat :=
  m.toList.length

def isEmpty (m : SortedMap κ α) : Bool :=
  m.toList.isEmpty

def filter (p : κ → α → Bool) (m : SortedMap κ α) : SortedMap κ α :=
  ⟨m.toList.filter fun entry => p entry.1 entry.2, m.sorted.filter _⟩

def insertEntry (k : κ) (a : α) : List (κ × α) → List (κ × α)
  | [] => [(k, a)]
  | entry :: entries =>
    match compare k entry.1 with
    | .lt => (k, a) :: entry :: entries
    | .eq => (k, a) :: entries
    | .gt => entry :: insertEntry k a entries

theorem mem_insertEntry {k : κ} {a : α} {e : κ × α} {entries : List (κ × α)}
    (h : e ∈ insertEntry k a entries) : e = (k, a) ∨ e ∈ entries := by
  induction entries with
  | nil => exact .inl (List.mem_singleton.1 h)
  | cons entry entries ih =>
    rw [insertEntry] at h
    split at h
    . exact List.mem_cons.1 h
    . rcases List.mem_cons.1 h with h | h
      . exact .inl h
      . exact .inr (List.mem_cons_of_mem _ h)
    . rcases List.mem_cons.1 h with h | h
      . exact .inr (h ▸ List.mem_cons_self)
      . exact (ih h).imp_right (List.mem_cons_of_mem _)

theorem pairwise_insertEntry [Std.TransOrd κ] [Std.LawfulEqOrd κ] {k : κ} {a : α}
    {entries : List (κ × α)} (h : entries.Pairwise fun a b => compare a.1 b.1 = .lt) :
    (insertEntry k a entries).Pairwise fun a b => compare a.1 b.1 = .lt := by
  induction entries with
  | nil => simp [insertEntry]
  | cons entry entries ih =>
    have ⟨before, rest⟩ := List.pairwise_cons.1 h
    rw [insertEntry]
    split
    case _ hk =>
      refine List.pairwise_cons.2 ⟨fun e he => ?_, h⟩
      rcases List.mem_cons.1 he with rfl | he
      . exact hk
      . exact Std.TransCmp.lt_trans hk (before e he)
    case _ hk =>
      have hk : k = entry.1 := Std.LawfulEqCmp.eq_of_compare hk
      exact List.pairwise_cons.2 ⟨fun e he => hk ▸ before e he, rest⟩
    case _ hk =>
      refine List.pairwise_cons.2 ⟨fun e he => ?_, ih rest⟩
      rcases mem_insertEntry he with rfl | he
      . exact Std.OrientedCmp.gt_iff_lt.1 hk
      . exact before e he

def insert [Std.TransOrd κ] [Std.LawfulEqOrd κ] (m : SortedMap κ α) (k : κ) (a : α) :
    SortedMap κ α :=
  ⟨insertEntry k a m.toList, pairwise_insertEntry m.sorted⟩

def insertNew [Std.TransOrd κ] [Std.LawfulEqOrd κ] (m : SortedMap κ α) (k : κ) (a : α) :
    SortedMap κ α :=
  if m.contains k then m else m.insert k a

theorem mem_insertNew [Std.TransOrd κ] [Std.LawfulEqOrd κ] {m : SortedMap κ α} {k : κ} {a : α}
    {e : κ × α} (h : e ∈ (m.insertNew k a).toList) : e = (k, a) ∨ e ∈ m.toList := by
  unfold insertNew at h
  split at h
  . exact .inr h
  . exact mem_insertEntry h

end SortedMap

end PatternLint
