import PatternLint.FileTree
import PatternLint.Syntax.Token

/-!
This module contains the reasons for which the sources of a project cannot be loaded.
-/

namespace PatternLint

structure ParseFailure where
  path : Path
  location : Location
  message : String
  deriving DecidableEq, Repr

namespace ParseFailure

def text (f : ParseFailure) : String :=
  s!"{f.path.shown}:{f.location.line}:{f.location.column}: {f.message}"

end ParseFailure

inductive LoadError where
  | io (path : Path) (error : IoError)
  -- A directory cannot be walked, for the reason that `message` gives.
  | walk (path : Path) (message : String)
  | parse (failures : List ParseFailure)
  deriving DecidableEq, Repr

namespace LoadError

def ofWalk (path : Path) (error : IoError) : LoadError :=
  .walk path s!"IO error for operation on {path.shown}: {error.message}"

def message : LoadError → String
  | io path error => s!"failed to read {path.shown}: {error.message}"
  | walk path message => s!"failed to walk {path.shown}: {message}"
  | parse failures =>
    let lines := failures.map fun f => "  - " ++ f.text
    s!"{failures.length} source file(s) failed to parse:\n" ++ "\n".intercalate lines

def code : LoadError → String
  | io .. => "patvet::load::io"
  | walk .. => "patvet::load::walk"
  | parse _ => "patvet::load::parse"

def help? : LoadError → Option String
  | parse _ => some "fix the sources or add their paths to `ignored`"
  | _ => none

end LoadError

end PatternLint
