import PatternLint.SortedMap

/-!
This module contains checkers and sets of them. The order of a set is that of the names of its
checkers, whatever the order was in which they were added: it decides which findings come first.
-/

namespace PatternLint

structure Checker (P : Type) where
  name : String
  pattern : P
  message : String
  deriving DecidableEq, Repr

structure CheckerSet (P : Type) where
  table : SortedMap String (Checker P)
  named : ∀ entry ∈ table.toList, entry.1 = entry.2.name

namespace CheckerSet

variable {P : Type}

def empty : CheckerSet P :=
  ⟨.empty, by simp [SortedMap.empty]⟩

instance : Inhabited (CheckerSet P) :=
  ⟨empty⟩

def find? (s : CheckerSet P) (name : String) : Option (Checker P) :=
  s.table.find? name

def contains (s : CheckerSet P) (name : String) : Bool :=
  s.table.contains name

def size (s : CheckerSet P) : Nat :=
  s.table.size

def isEmpty (s : CheckerSet P) : Bool :=
  s.table.isEmpty

def add (s : CheckerSet P) (c : Checker P) : CheckerSet P where
  table := s.table.insertNew c.name c
  named entry h := by
    rcases SortedMap.mem_insertNew h with rfl | h
    . rfl
    . exact s.named entry h

def checkers (s : CheckerSet P) : List (Checker P) :=
  s.table.values

def names (s : CheckerSet P) : List String :=
  s.table.keys

def filterNames (keep : String → Bool) (s : CheckerSet P) : CheckerSet P where
  table := s.table.filter fun name _ => keep name
  named entry h := s.named entry (List.mem_filter.1 h).1

end CheckerSet

end PatternLint
