import PatternLint.Checker
import PatternLint.Config
import PatternLint.Diagnostic
import PatternLint.Policy.ProjectPath

/-!
This module turns a configuration into a policy: which checkers there are, which of them are in
force where, which paths are left out, and how many diagnostics a run may collect. The steps are
taken in a fixed order, and the first problem is reported.
-/

namespace PatternLint

abbrev PatternCompiler (P : Type) :=
  String → Except String P

structure Policy (P : Type) where
  root : Path
  budget : Budget
  registry : CheckerSet P
  ignored : PathSet
  global : CheckerSet P
  overrides : PathMap (Path × CheckerSet P)

namespace Policy

variable {P : Type}

def isIgnored (policy : Policy P) (p : Path) : Bool :=
  policy.ignored.has p

def overrideFor? (policy : Policy P) (p : Path) : Option (CheckerSet P) :=
  (policy.overrides.find? p.components).map Prod.snd

def checkersFor (policy : Policy P) (directory : Path) : CheckerSet P :=
  (policy.overrideFor? directory).getD policy.global

end Policy

variable {P : Type}

def resolveCheckersFrom (compile : PatternCompiler P) (registry : CheckerSet P) :
    List CheckerEntry → Except PolicyError (CheckerSet P)
  | [] => .ok registry
  | entry :: entries =>
    if registry.contains entry.name then
      .error (.duplicateChecker entry.name)
    else
      match compile entry.pattern with
      | .error message => .error (.pattern entry.name message)
      | .ok pattern =>
        let checker := ⟨entry.name, pattern, entry.message⟩
        resolveCheckersFrom compile (CheckerSet.add registry checker) entries

def resolveCheckers (compile : PatternCompiler P) (entries : List CheckerEntry) :
    Except PolicyError (CheckerSet P) :=
  resolveCheckersFrom compile .empty entries

def resolveIgnoredFrom (tree : FileTree) (root : Path) (index : Nat) (set : PathSet) :
    List String → Except PolicyError PathSet
  | [] => .ok set
  | text :: texts =>
    match projectPath tree root text with
    | .error fault => .error (.path (.ignored index) text fault)
    | .ok path => resolveIgnoredFrom tree root (index + 1) (set.add path) texts

def resolveIgnored (tree : FileTree) (root : Path) (texts : List String) :
    Except PolicyError PathSet :=
  resolveIgnoredFrom tree root 0 .empty texts

def selectNamesFrom (registry set : CheckerSet P) :
    List String → Except SelectionFault (CheckerSet P)
  | [] => .ok set
  | name :: names =>
    match registry.find? name with
    | none => .error (.unknownChecker name)
    | some checker => selectNamesFrom registry (CheckerSet.add set checker) names

def Selection.apply (registry : CheckerSet P) (s : Selection) :
    Except SelectionFault (CheckerSet P) :=
  match s.enabled, s.disabled with
  | some _, some _ => .error .bothLists
  | some names, none => selectNamesFrom registry .empty names
  -- names of checkers that do not exist are no mistake here
  | none, some names => .ok (CheckerSet.filterNames (fun name => !names.contains name) registry)
  | none, none => .ok registry

def OverrideEntry.target (index : Nat) (e : OverrideEntry) :
    Except PolicyError (PathField × String) :=
  match e.package, e.file with
  | some text, none => .ok (.package index, text)
  | none, some text => .ok (.file index, text)
  | some _, some _ => .error (.bothTargets index)
  | none, none => .error (.noTarget index)

def targetFault? (tree : FileTree) (path : Path) : PathField → Option PathFault
  | .package _ => if tree.isDirectory path then none else some .noDirectory
  | .file _ => if tree.isFile path then none else some .noFile
  | .ignored _ => none

def OverrideEntry.resolve (tree : FileTree) (root : Path) (registry : CheckerSet P) (index : Nat)
    (e : OverrideEntry) : Except PolicyError (Path × CheckerSet P) := do
  let scope := overrideScope index
  let (field, text) ← e.target index
  if e.selection.enabled.isSome && e.selection.disabled.isSome then
    throw (.selection scope .bothLists)
  let path ← (projectPath tree root text).mapError (PolicyError.path field text)
  if let some fault := targetFault? tree path field then
    throw (.path field text fault)
  let set ← (e.selection.apply registry).mapError (PolicyError.selection scope)
  return (path, set)

def resolveOverridesFrom (tree : FileTree) (root : Path) (registry : CheckerSet P) (index : Nat)
    (table : PathMap (Path × CheckerSet P)) :
    List OverrideEntry → Except PolicyError (PathMap (Path × CheckerSet P))
  | [] => .ok table
  | entry :: entries =>
    match entry.resolve tree root registry index with
    | .error e => .error e
    | .ok (path, set) =>
      -- of two overrides for one path, the later one wins
      let table := table.insert path.components (path, set)
      resolveOverridesFrom tree root registry (index + 1) table entries

def resolveOverrides (tree : FileTree) (root : Path) (registry : CheckerSet P)
    (entries : List OverrideEntry) : Except PolicyError (PathMap (Path × CheckerSet P)) :=
  resolveOverridesFrom tree root registry 0 .empty entries

def Config.budget? (c : Config) : Option Budget :=
  match c.choke with
  | some limit => Budget.ofNat? limit
  | none => some .standard

def Policy.resolve (compile : PatternCompiler P) (tree : FileTree) (root : Path) (c : Config) :
    Except PolicyError (Policy P) := do
  let some budget := c.budget? | throw .zeroChoke
  let registry ← resolveCheckers compile c.checkers
  let ignored ← resolveIgnored tree root c.ignored
  let global ← (c.selection.apply registry).mapError (PolicyError.selection globalScope)
  let overrides ← resolveOverrides tree root registry c.overrides
  return { root, budget, registry, ignored, global, overrides }

end PatternLint
