import PatternLint.Path

/-!
This module contains findings and the budget of them: places in files, diagnostics, and collections
of diagnostics that never outgrow their budget.
-/

namespace PatternLint

structure Position where
  file : Path
  line : Nat
  column : Nat
  deriving DecidableEq, Repr

namespace Position

def render (file : String) (p : Position) : String :=
  s!"{file}:{p.line}:{p.column}"

def text (p : Position) : String :=
  p.render p.file.shown

/--
The text of a position as seen from a project root: a file under the root is written from a dot on,
and any other file in full.
-/
def relativeTo (root : Path) (p : Position) : String :=
  match root.stripPrefix? p.file with
  -- the components of an empty root start every path, but nothing is under it
  | some rest => if root.text.isEmpty then p.text else p.render ("./" ++ rest.shown)
  | none => p.text

def compare (p q : Position) : Ordering :=
  (Ord.compare p.file.components q.file.components).then
    ((Ord.compare p.line q.line).then (Ord.compare p.column q.column))

end Position

structure Diagnostic where
  position : Option Position
  message : String
  deriving DecidableEq, Repr

structure Budget where
  limit : Nat
  limit_pos : 0 < limit
  deriving DecidableEq, Repr

namespace Budget

def ofNat? (limit : Nat) : Option Budget :=
  if h : 0 < limit then some ⟨limit, h⟩ else none

def standard : Budget :=
  ⟨30, by decide⟩

def text (b : Budget) : String :=
  toString b.limit

end Budget

structure Collection where
  budget : Budget
  diagnostics : List Diagnostic
  length_le : diagnostics.length ≤ budget.limit

namespace Collection

def empty (b : Budget) : Collection :=
  ⟨b, [], Nat.zero_le _⟩

def push? (c : Collection) (d : Diagnostic) : Option Collection :=
  if h : c.diagnostics.length < c.budget.limit then
    some ⟨c.budget, c.diagnostics ++ [d], by rw [List.length_append]; exact h⟩
  else
    none

end Collection

end PatternLint
