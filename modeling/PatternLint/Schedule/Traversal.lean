import PatternLint.Policy.Resolve
import PatternLint.Schedule.Basic
import PatternLint.Source.Name
import PatternLint.Source.Provider

/-!
This module builds the schedule of a project. In a directory, the entries are visited in the order
of its listing: what is below a subdirectory comes where it is listed, and so does each file with an
override of its own. The other source files of the directory make one unit, which comes last.
-/

namespace PatternLint

variable {U P : Type}

inductive SkipReason where
  | ignored
  | hidden
  | vendored
  | noSource
  deriving DecidableEq, Repr

def skipReason? (policy : Policy P) (provider : Provider U) (e : DirEntry) : Option SkipReason :=
  if policy.isIgnored e.path then
    some .ignored
  else if isHiddenName e.name then
    some .hidden
  else if e.isDirectory && e.name == vendorName then
    some .vendored
  else if !e.isDirectory && !provider.isSource e.path then
    some .noSource
  else
    none

namespace Schedule

structure Visit (U P : Type) where
  schedule : Schedule U P
  plain : List Path

namespace Visit

def addFile (policy : Policy P) (provider : Provider U) (v : Visit U P) (path : Path) :
    Visit U P :=
  match policy.overrideFor? path with
  | none => { v with plain := v.plain ++ [path] }
  | some set =>
    match provider.fileUnit? path with
    | some unit => { v with schedule := v.schedule.push unit set }
    | none => v

def finish (policy : Policy P) (provider : Provider U) (directory : Path) (v : Visit U P) :
    Schedule U P :=
  if v.plain.isEmpty then
    v.schedule
  else
    match provider.packageUnit? directory v.plain with
    | some unit => v.schedule.push unit (policy.checkersFor directory)
    | none => v.schedule

end Visit

mutual

def ofListing (policy : Policy P) (provider : Provider U) (directory : Path) :
    Listing → Except LoadError (Schedule U P)
  | .failed e => .error e
  | .entries children => do
    let v ← visitEntries policy provider ⟨.empty, []⟩ children
    return v.finish policy provider directory

def visitEntries (policy : Policy P) (provider : Provider U) (v : Visit U P) :
    List ListedEntry → Except LoadError (Visit U P)
  | [] => .ok v
  | entry :: entries => do
    let v ← visitEntry policy provider v entry
    visitEntries policy provider v entries

def visitEntry (policy : Policy P) (provider : Provider U) (v : Visit U P) :
    ListedEntry → Except LoadError (Visit U P)
  | .file path =>
    if (skipReason? policy provider ⟨path, false⟩).isSome then
      .ok v
    else
      .ok (v.addFile policy provider path)
  | .directory path listing =>
    if (skipReason? policy provider ⟨path, true⟩).isSome then
      .ok v
    else do
      let below ← ofListing policy provider path listing
      return { v with schedule := v.schedule.append below }

end

def traverse (policy : Policy P) (provider : Provider U) (directory : Path) :
    Except LoadError (Schedule U P) :=
  ofListing policy provider directory (provider.listing directory)

def ofProject (policy : Policy P) (provider : Provider U) : Except LoadError (Schedule U P) :=
  -- the walk itself asks only for the entries below the root
  if policy.isIgnored policy.root then
    .ok .empty
  else
    traverse policy provider policy.root

end Schedule

end PatternLint
