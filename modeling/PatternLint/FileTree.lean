import PatternLint.Path

/-!
This module contains file systems as values: trees of directories, files and symbolic links, and
what can be asked about the paths in them.
-/

namespace PatternLint

inductive FileTree where
  | file (content : ByteArray)
  | link (target : RawText)
  | directory (entries : List (RawText × FileTree))
  deriving Inhabited

inductive IoError where
  | notFound
  | notDirectory
  | isDirectory
  | tooManyLinks
  | nameTooLong
  | zeroByte
  | notText
  | other (text : String)
  deriving DecidableEq, Repr

def IoError.message : IoError → String
  | notFound => "No such file or directory (os error 2)"
  | notDirectory => "Not a directory (os error 20)"
  | isDirectory => "Is a directory (os error 21)"
  | tooManyLinks => "Too many levels of symbolic links (os error 40)"
  | nameTooLong => "File name too long (os error 36)"
  | zeroByte => "file name contained an unexpected NUL byte"
  | notText => "stream did not contain valid UTF-8"
  | other text => text

namespace FileTree

def emptyDirectory : FileTree :=
  directory []

def findEntry (entries : List (RawText × FileTree)) (name : RawText) : Option FileTree :=
  (entries.find? fun entry => entry.1 == name).map Prod.snd

def descend : List RawText → FileTree → Option FileTree
  | [], t => some t
  | name :: names, directory entries => (findEntry entries name).bind (descend names)
  | _ :: _, _ => none

def put (new : FileTree) : List RawText → FileTree → FileTree
  | [], _ => new
  | name :: names, directory entries =>
    -- directories on the way are made where they are missing
    let below := (findEntry entries name).getD emptyDirectory
    directory (SortedMap.insertEntry name (put new names below) entries)
  | name :: names, _ => directory [(name, put new names emptyDirectory)]

def maxLinks : Nat :=
  40

def maxNameLength : Nat :=
  255

/--
Follow the parts of a path from the directory whose names are `here`, the last one first. A link at
the end is followed only if `followLast`. Where a link is followed, `jump` goes on from the directory
it is in with its target and the parts after it.
-/
def followParts (t : FileTree) (followLast : Bool)
    (jump : List RawText → RawText → List (List UInt8) → Except IoError (List RawText))
    (here : List RawText) : (parts : List (List UInt8)) → Except IoError (List RawText)
  | [] => .ok here
  | part :: rest =>
    match t.descend here.reverse with
    | some (directory entries) =>
      match Path.componentOfPart? part with
      | some (.normal name) =>
        if maxNameLength < name.size then
          .error .nameTooLong
        else
          match findEntry entries name with
          | none => .error .notFound
          | some (link target) =>
            if rest.isEmpty && !followLast then .ok (name :: here) else jump here target rest
          | some _ => followParts t followLast jump (name :: here) rest
      -- the directory above the topmost one is that one itself
      | some .parent => followParts t followLast jump here.tail rest
      | _ => followParts t followLast jump here rest
    | _ => .error .notDirectory

def follow (t : FileTree) (followLast : Bool) :
    (links : Nat) → (here : List RawText) → (parts : List (List UInt8)) →
      Except IoError (List RawText)
  | 0 => t.followParts followLast fun _ _ _ => .error .tooManyLinks
  | links + 1 =>
    t.followParts followLast fun here target rest =>
      let path : Path := ⟨target⟩
      let parts := Text.splitAt Path.slash target.toList
      if target.isEmpty then
        .error .notFound
      else
        follow t followLast links (if path.isAbsolute then [] else here) (parts ++ rest)

def locate (t : FileTree) (followLast : Bool) (p : Path) : Except IoError (List RawText) :=
  if p.text.toList.contains 0 then
    .error .zeroByte
  else if p.text.isEmpty then
    .error .notFound
  else
    (t.follow followLast maxLinks [] (Text.splitAt Path.slash p.text.toList)).map List.reverse

def resolve (t : FileTree) (followLast : Bool) (p : Path) : Except IoError FileTree := do
  let names ← t.locate followLast p
  match t.descend names with
  | some found => return found
  | none => throw .notFound

def has (t : FileTree) (p : Path) : Bool :=
  (t.resolve true p).isOk

def isDirectory (t : FileTree) (p : Path) : Bool :=
  match t.resolve true p with
  | .ok (directory _) => true
  | _ => false

def isFile (t : FileTree) (p : Path) : Bool :=
  match t.resolve true p with
  | .ok (file _) => true
  | _ => false

def decode (content : ByteArray) : Except IoError String :=
  match String.fromUTF8? content with
  | some text => .ok text
  | none => .error .notText

def readText (t : FileTree) (p : Path) : Except IoError String := do
  match ← t.resolve true p with
  | file content => decode content
  | _ => throw .isDirectory

def canonicalPath (t : FileTree) (p : Path) : Except IoError Path := do
  return .ofParts .root ((← t.locate true p).map RawText.toList)

end FileTree

end PatternLint
