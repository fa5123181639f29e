import PatternLint.Source.Provider

/-!
This module lists directories of a file system. Entries come in the order of their names, and a
link counts as a file, whatever it leads to. Only the directory that is asked for may itself be
given by a link.
-/

namespace PatternLint

mutual

def ListedEntry.ofTree (path : Path) : FileTree → ListedEntry
  | .file _ | .link _ => .file path
  | .directory entries => .directory path (.entries (Listing.ofEntries path entries))

def Listing.ofEntries (directory : Path) : List (RawText × FileTree) → List ListedEntry
  | [] => []
  | (name, t) :: entries => .ofTree (directory.join ⟨name⟩) t :: Listing.ofEntries directory entries

end

/--
What stands at the start of a walk: a directory with its entries, also by way of a link, or a file
with its content, which a link does not lead to.
-/
inductive WalkStart where
  | directory (entries : List (RawText × FileTree))
  | file (content : ByteArray)
  | linkedFile

def WalkStart.find (tree : FileTree) (start : Path) : Except IoError WalkStart := do
  match ← tree.resolve false start with
  | .directory entries => return .directory entries
  | .file content => return .file content
  | .link _ =>
    match ← tree.resolve true start with
    | .directory entries => return .directory entries
    | _ => return .linkedFile

def Listing.ofPath (tree : FileTree) (directory : Path) : Listing :=
  match WalkStart.find tree directory with
  | .error e => .failed (.ofWalk directory e)
  | .ok (.directory children) => .entries (ofEntries directory children)
  -- a project may be a single file, which has no entries
  | .ok _ => .entries []

end PatternLint
