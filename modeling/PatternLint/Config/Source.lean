import PatternLint.Config.Decode

/-!
This module finds the configuration of a project. A file that the user names comes first, then the
files of the project, then that of the user, and without any of them nothing is configured.
-/

namespace PatternLint

inductive ConfigSource where
  | explicit (path : Path)
  | project (path : Path)
  | user (path : Path)
  | builtIn
  deriving DecidableEq, Repr, Inhabited

namespace ConfigSource

def projectNames : List String :=
  ["patvet.toml", ".patvet.toml"]

def userName : String :=
  "config.toml"

def userDirectoryName : String :=
  ".patvet"

def userDirectory? (setting : Option String) (home : Option Path) : Option Path :=
  match setting with
  | some text => if text.isEmpty then inHome else some ⟨text⟩
  | none => inHome
where
  inHome : Option Path :=
    home.map fun p => p.join ⟨userDirectoryName⟩

def path? : ConfigSource → Option Path
  | explicit p | project p | user p => some p
  | builtIn => none

def kind : ConfigSource → String
  | explicit _ => "Explicit"
  | project _ => "Project"
  | user _ => "User"
  | builtIn => "Default"

def text : ConfigSource → String
  | explicit p => s!"{p.shown} (--config)"
  | project p => s!"{p.shown} (project)"
  | user p => s!"{p.shown} (user)"
  | builtIn => "built-in defaults"

def find (tree : FileTree) (here root : Path) (named : Option Path) (userDirectory : Option Path) :
    ConfigSource :=
  let isThere (p : Path) : Bool := tree.isFile (here.join p)
  match named with
  -- that a named file is missing shows when it is read
  | some p => explicit p
  | none =>
    match (projectNames.map fun name : String => root.join ⟨name⟩).find? isThere with
    | some p => project p
    | none =>
      match (userDirectory.map fun p => p.join ⟨userName⟩).filter isThere with
      | some p => user p
      | none => builtIn

def load (tree : FileTree) (here : Path) (s : ConfigSource) : Except ConfigError Config :=
  match s.path? with
  | some p =>
    match tree.readText (here.join p) with
    | .ok text => Config.ofText text
    | .error e => .error (.io p e)
  | none => .ok .empty

end ConfigSource

end PatternLint
