import PatternLint.Command.Check

/-!
This module is the command as a program. It takes a picture of the files that a check may look at,
and leaves everything else to the library.
-/

namespace PatternLint.Command

def namesOnPath (path : String) : List RawText :=
  ((path.splitOn "/").filter fun name => !name.isEmpty).map RawText.ofString

def realPath? (path : String) : IO (Option String) := do
  try
    return some (← IO.FS.realPath path).toString
  catch _ =>
    return none

def pictureOfFile (path : String) : IO FileTree :=
  return .file (← IO.FS.readBinFile path)

mutual

partial def pictureOfEntry (entry : IO.FS.DirEntry) : IO FileTree := do
  match (← entry.path.symlinkMetadata).type with
  | .dir => pictureOfEntries (← entry.path.readDir)
  | .file =>
    if isSourcePath ⟨entry.fileName⟩ || ConfigSource.projectNames.contains entry.fileName then
      pictureOfFile entry.path.toString
    else
      return .file .empty
  | .symlink | .other => return .link ((← realPath? entry.path.toString).getD "")

partial def pictureOfEntries (entries : Array IO.FS.DirEntry) : IO FileTree :=
  entries.foldlM
    (fun t entry => return FileTree.put (← pictureOfEntry entry) [entry.fileName] t)
    FileTree.emptyDirectory

end

mutual

def linkTargets : FileTree → List String
  | .file _ => []
  | .link target => [target.shown]
  | .directory entries => linkTargetsOfEntries entries

def linkTargetsOfEntries : List (RawText × FileTree) → List String
  | [] => []
  | (_, t) :: entries => linkTargets t ++ linkTargetsOfEntries entries

end

def addTarget (t : FileTree) (path : String) : IO FileTree := do
  if path.isEmpty || t.has ⟨path⟩ then
    return t
  let path ← IO.FS.realPath path
  let picture ←
    if ← path.isDir then pictureOfEntries (← path.readDir) else pictureOfFile path.toString
  return FileTree.put picture (namesOnPath path.toString) t

def addFile (t : FileTree) (path : String) : IO FileTree := do
  let path ← IO.FS.realPath path
  if ← path.isDir then
    return if t.has ⟨path.toString⟩ then t else
      FileTree.put .emptyDirectory (namesOnPath path.toString) t
  else
    return FileTree.put (← pictureOfFile path.toString) (namesOnPath path.toString) t

def addProject (t : FileTree) (options : CheckOptions) : IO (FileTree × CheckOptions) := do
  let some root ← realPath? options.root.shown | return (t, options)
  let t ← addTarget t root
  let t ← (linkTargets t).foldlM addTarget t
  return (t, { options with root := ⟨root⟩ })

def addNamedConfig (t : FileTree) (options : CheckOptions) : IO (FileTree × CheckOptions) := do
  let some path := options.config | return (t, options)
  let some path ← realPath? path.shown | return (t, options)
  return (← addFile t path, { options with config := some ⟨path⟩ })

def addUserConfig (t : FileTree) : IO (FileTree × Option Path) := do
  let home := (← IO.getEnv "HOME").map Path.mk
  let some directory := ConfigSource.userDirectory? (← IO.getEnv "PATVET_CONFIG_DIR") home
    | return (t, none)
  let some directory ← realPath? directory.shown | return (t, none)
  let path := Path.join ⟨directory⟩ ⟨ConfigSource.userName⟩
  let some file ← realPath? path.shown | return (t, some ⟨directory⟩)
  let t ← addFile t file
  let t := if path.shown == file then t else FileTree.put (.link file) (namesOnPath path.shown) t
  return (t, some ⟨directory⟩)

def survey (options : CheckOptions) : IO (Surroundings × CheckOptions) := do
  let (t, options) ← addProject .emptyDirectory options
  let (t, options) ← addNamedConfig t options
  let (t, userDirectory) ← addUserConfig t
  let here ← IO.currentDir
  let isTerminal ← (← IO.getStdout).isTty
  return (⟨t, ⟨here.toString⟩, userDirectory, isTerminal⟩, options)

def reply (arguments : List String) : IO Reply := do
  match readArguments arguments with
  | .error stop => return .ofStop stop
  | .ok options =>
    let (surroundings, options) ← survey options
    return .ofCheck surroundings options

end PatternLint.Command

open PatternLint.Command in
def main (arguments : List String) : IO UInt32 := do
  let reply ← reply arguments
  let output ← IO.getStdout
  output.putStr reply.output
  output.flush
  if let some complaint := reply.complaint then
    IO.eprintln complaint
  return reply.status.toUInt32
