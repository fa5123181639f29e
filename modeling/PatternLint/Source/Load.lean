import PatternLint.Pattern.Search
import PatternLint.Run
import PatternLint.Source.Listing
import PatternLint.Source.Name
import PatternLint.Syntax.File

/-!
This module loads the sources of a project: it walks the tree below the root, reads every source
file that is not left out, and parses it. A file that cannot be read ends the walk at once, and
files that cannot be parsed are collected.
-/

namespace PatternLint

structure ParsedFile where
  path : Path
  tree : Syntax.SourceTree
  deriving Inhabited

structure SourceUnit where
  directory : Path
  files : List ParsedFile
  deriving Inhabited

structure Sources where
  root : Path
  files : PathMap ParsedFile

def isLeftOut (ignored : PathSet) (path : Path) (name : RawText) (t : FileTree) : Bool :=
  isHiddenName name.shown || (t matches .directory _ && name.shown == vendorName) ||
    ignored.has path

mutual

def sourcesAt (ignored : PathSet) (path : Path) : FileTree → List (Path × ByteArray)
  | .file content => if isSourcePath path then [(path, content)] else []
  | .link _ => []
  | .directory entries => sourcesIn ignored path entries

def sourcesIn (ignored : PathSet) (directory : Path) :
    List (RawText × FileTree) → List (Path × ByteArray)
  | [] => []
  | (name, t) :: entries =>
    let path := directory.join ⟨name⟩
    let first := if isLeftOut ignored path name t then [] else sourcesAt ignored path t
    first ++ sourcesIn ignored directory entries

end

def sourcesFrom (tree : FileTree) (start : Path) (ignored : PathSet) :
    Except LoadError (List (Path × ByteArray)) :=
  match WalkStart.find tree start with
  | .error e => .error (.ofWalk start e)
  -- the name of the start may be hidden, for only what is below it is left out
  | .ok (.directory entries) => .ok (sourcesIn ignored start entries)
  | .ok (.file content) => .ok (sourcesAt ignored start (.file content))
  | .ok .linkedFile => .ok []

def ParsedFile.ofText (path : Path) (text : String) : Except ParseFailure ParsedFile :=
  match Syntax.Tree.ofSource text with
  | .ok tree => .ok ⟨path, tree⟩
  | .error e => .error ⟨path, e.location, e.message⟩

namespace Sources

def readAll : List (Path × ByteArray) → Except LoadError (List (Path × String))
  | [] => .ok []
  | (path, content) :: rest =>
    match FileTree.decode content with
    | .error e => .error (.io path e)
    | .ok text => (readAll rest).map ((path, text) :: ·)

def parseAll (texts : List (Path × String)) : List ParseFailure × List ParsedFile :=
  texts.foldr
    (fun entry parsed =>
      match ParsedFile.ofText entry.1 entry.2 with
      | .error failure => (failure :: parsed.1, parsed.2)
      | .ok file => (parsed.1, file :: parsed.2))
    ([], [])

def ofFiles (root : Path) (files : List ParsedFile) : Sources :=
  ⟨root, files.foldl (fun table file => table.insert file.path.components file) .empty⟩

def load (tree : FileTree) (root : Path) (ignored : PathSet) : Except LoadError Sources :=
  if ignored.has root then
    .ok (ofFiles root [])
  else do
    let texts ← readAll (← sourcesFrom tree root ignored)
    -- all texts are parsed before any failure counts
    match parseAll texts with
    | ([], files) => return ofFiles root files
    | (failures, _) => throw (.parse failures)

def file? (s : Sources) (path : Path) : Option ParsedFile :=
  s.files.find? path.components

def unitOf? (s : Sources) : List ParsedFile → Option SourceUnit
  | [] => none
  | first :: rest => some ⟨first.path.parent?.getD s.root, first :: rest⟩

def provider (tree : FileTree) (s : Sources) : Provider SourceUnit where
  listing := Listing.ofPath tree
  isSource := isSourcePath
  fileUnit? path := s.unitOf? (s.file? path).toList
  -- files that are not loaded are dropped
  packageUnit? _ files := s.unitOf? (files.filterMap s.file?)

end Sources

def ParsedFile.find (pattern : NodePattern) (file : ParsedFile) : List Position :=
  (pattern.find file.tree).map fun l => ⟨file.path, l.line, l.column⟩

def SourceUnit.matcher : Matcher SourceUnit NodePattern :=
  fun unit pattern =>
    .ok ((unit.files.flatMap (ParsedFile.find pattern)).map fun position => [position])

end PatternLint
