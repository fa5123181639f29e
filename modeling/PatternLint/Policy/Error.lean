import PatternLint.Text.Split

/-!
This module contains the reasons for which a configuration is refused.
-/

namespace PatternLint

inductive SelectionFault where
  | bothLists
  | unknownChecker (name : String)
  deriving DecidableEq, Repr

inductive PathFault where
  | blank
  | absolute
  | escaping
  | missing
  | noDirectory
  | noFile
  deriving DecidableEq, Repr

inductive PathField where
  | ignored (index : Nat)
  | package (index : Nat)
  | file (index : Nat)
  deriving DecidableEq, Repr

inductive PolicyError where
  | zeroChoke
  | duplicateChecker (name : String)
  -- A pattern is none, for the reason that `message` gives.
  | pattern (checker : String) (message : String)
  | selection (scope : String) (fault : SelectionFault)
  | bothTargets (index : Nat)
  | noTarget (index : Nat)
  | path (field : PathField) (text : String) (fault : PathFault)
  deriving DecidableEq, Repr

def globalScope : String :=
  "global"

def overrideScope (index : Nat) : String :=
  s!"override[{index}]"

namespace PathField

def text : PathField → String
  | ignored index => s!"ignored[{index}]"
  | package index => s!"{overrideScope index}.package"
  | file index => s!"{overrideScope index}.file"

end PathField

namespace PathFault

def text : PathFault → String
  | blank => "must not be empty"
  | absolute => "must be relative to the project root"
  | escaping => "must stay inside the project root"
  | missing => "does not exist"
  | noDirectory => "is not a directory"
  | noFile => "is not a file"

end PathFault

namespace PolicyError

open Text (quoted)

def message : PolicyError → String
  | zeroChoke => "choke must be a positive integer"
  | duplicateChecker name => s!"duplicate checker {quoted name}"
  | pattern checker message => s!"checker {quoted checker}: invalid pattern: {message}"
  | selection scope .bothLists => s!"{scope}: only one of `enabled` and `disabled` may be set"
  | selection scope (.unknownChecker name) => s!"{scope}: checker {quoted name} does not exist"
  | bothTargets index => s!"{overrideScope index}: only one of `package` and `file` may be set"
  | noTarget index => s!"{overrideScope index}: one of `package` or `file` is required"
  | path field text fault => s!"{field.text}: {quoted text} {fault.text}"

def code : PolicyError → String
  | zeroChoke => "patvet::policy::choke"
  | duplicateChecker _ => "patvet::policy::duplicate_checker"
  | pattern .. => "patvet::policy::pattern"
  | selection _ .bothLists => "patvet::policy::exclusivity"
  | selection _ (.unknownChecker _) => "patvet::policy::unknown_checker"
  | bothTargets _ | noTarget _ => "patvet::policy::target"
  | path .. => "patvet::policy::path"

def help? : PolicyError → Option String
  | duplicateChecker _ => some "checker names must be unique across [[checkers]]"
  | bothTargets _ | noTarget _ =>
    some "each [[override]] targets exactly one `package` or one `file`"
  | _ => none

end PolicyError

end PatternLint
