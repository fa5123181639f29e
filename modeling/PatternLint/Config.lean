/-!
This module contains configurations as they are written, before anything in them is checked.
-/

namespace PatternLint

structure CheckerEntry where
  name : String
  pattern : String
  message : String
  deriving DecidableEq, Repr, Inhabited

structure Selection where
  enabled : Option (List String)
  disabled : Option (List String)
  deriving DecidableEq, Repr, Inhabited

structure OverrideEntry where
  package : Option String
  file : Option String
  selection : Selection
  deriving DecidableEq, Repr, Inhabited

structure Config where
  choke : Option Nat
  checkers : List CheckerEntry
  selection : Selection
  ignored : List String
  overrides : List OverrideEntry
  deriving DecidableEq, Repr, Inhabited

namespace Config

def empty : Config :=
  ⟨none, [], ⟨none, none⟩, [], []⟩

end Config

end PatternLint
