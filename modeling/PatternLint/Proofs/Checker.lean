import PatternLint.Checker
import PatternLint.Proofs.SortedMap
import PatternLint.Proofs.Text.Bytes

/-!
This module contains the laws of sets of checkers: what is found under a name, and that a set is
determined by it. The order of a set is that of the bytes of its names.
-/

namespace PatternLint.CheckerSet

variable {P : Type}

theorem find?_empty (name : String) : (empty : CheckerSet P).find? name = none := by
  rfl

theorem contains_eq_isSome (s : CheckerSet P) (name : String)
    : s.contains name = (s.find? name).isSome := by
  rfl

theorem name_of_find? {s : CheckerSet P} {name : String} {c : Checker P}
    (h : s.find? name = some c) : c.name = name := by
  have := s.named _ (SortedMap.mem_toList_iff.2 h)
  exact this.symm

theorem mem_checkers_iff {s : CheckerSet P} {c : Checker P}
    : c ∈ s.checkers ↔ s.find? c.name = some c := by
  unfold checkers SortedMap.values
  rw [List.mem_map]
  constructor
  . rintro ⟨entry, hentry, rfl⟩
    apply SortedMap.mem_toList_iff.1
    rw [← s.named entry hentry]
    exact hentry
  . intro h
    exact ⟨_, SortedMap.mem_toList_iff.2 h, rfl⟩

theorem mem_names_iff {s : CheckerSet P} {name : String}
    : name ∈ s.names ↔ ∃ c, s.find? name = some c := by
  unfold names SortedMap.keys
  rw [List.mem_map]
  constructor
  . rintro ⟨⟨key, c⟩, hentry, rfl⟩
    exact ⟨c, SortedMap.mem_toList_iff.1 hentry⟩
  . rintro ⟨c, hc⟩
    exact ⟨_, SortedMap.mem_toList_iff.2 hc, rfl⟩

theorem find?_add (s : CheckerSet P) (c : Checker P) (name : String)
    : (s.add c).find? name = (s.find? name).or (if c.name = name then some c else none) := by
  apply SortedMap.find?_insertNew

theorem contains_add_iff {s : CheckerSet P} {c : Checker P} {name : String}
    : (s.add c).contains name = true ↔ c.name = name ∨ s.contains name = true := by
  apply SortedMap.contains_insertNew

theorem find?_filterNames (keep : String → Bool) (s : CheckerSet P) (name : String)
    : (filterNames keep s).find? name = (s.find? name).filter fun _ => keep name := by
  apply SortedMap.find?_filter

theorem eq_of_find?_eq {s t : CheckerSet P} (h : ∀ name, s.find? name = t.find? name) : s = t := by
  cases s
  cases t
  simp only [mk.injEq]
  exact SortedMap.eq_of_find?_eq h

theorem contains_iff {s : CheckerSet P} {name : String} : s.contains name = true ↔ name ∈ s.names := by
  rw [contains_eq_isSome, Option.isSome_iff_exists, mem_names_iff]

theorem name_mem_names {s : CheckerSet P} {c : Checker P} (h : c ∈ s.checkers) : c.name ∈ s.names :=
  mem_names_iff.2 ⟨c, mem_checkers_iff.1 h⟩

theorem find?_eq_some_iff {s : CheckerSet P} {name : String} {c : Checker P}
    : s.find? name = some c ↔ c ∈ s.checkers ∧ c.name = name := by
  rw [mem_checkers_iff]
  constructor
  . intro h
    have hname := name_of_find? h
    subst hname
    exact ⟨h, rfl⟩
  . rintro ⟨h, rfl⟩
    exact h

theorem checkers_filterNames (keep : String → Bool) (s : CheckerSet P)
    : (filterNames keep s).checkers = s.checkers.filter fun c => keep c.name := by
  unfold filterNames checkers SortedMap.values SortedMap.filter
  rw [List.filter_map]
  congr 1
  apply List.filter_congr
  intro entry hentry
  rw [s.named entry hentry, Function.comp_apply]

theorem eq_of_mem_iff {s t : CheckerSet P} (h : ∀ c, c ∈ s.checkers ↔ c ∈ t.checkers) : s = t := by
  apply eq_of_find?_eq
  intro name
  apply Option.ext
  intro c
  rw [find?_eq_some_iff, find?_eq_some_iff, h]

theorem isEmpty_iff {set : CheckerSet P} : set.isEmpty = true ↔ set.checkers = [] := by
  unfold isEmpty SortedMap.isEmpty checkers SortedMap.values
  rw [List.isEmpty_iff, List.map_eq_nil_iff]

theorem pairwise_checkers (set : CheckerSet P)
    : set.checkers.Pairwise fun c d => compare c.name d.name = .lt := by
  unfold checkers SortedMap.values
  rw [List.pairwise_map]
  apply set.table.sorted.imp_of_mem
  intro first second hfirst hsecond h
  rw [← set.named first hfirst, ← set.named second hsecond]
  exact h

theorem pairwise_bytes (set : CheckerSet P)
    : set.checkers.Pairwise fun c d => Text.bytes c.name < Text.bytes d.name := by
  apply set.pairwise_checkers.imp
  intro c d
  apply Text.bytes_lt_of_compare

end PatternLint.CheckerSet
