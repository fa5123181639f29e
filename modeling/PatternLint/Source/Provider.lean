import PatternLint.Source.Error

/-!
This module contains what the scheduler knows of a project: the listing of its directories, and the
units of source that files and directories make.
-/

namespace PatternLint

structure DirEntry where
  path : Path
  isDirectory : Bool
  deriving DecidableEq, Repr

namespace DirEntry

def name (e : DirEntry) : String :=
  (e.path.fileName?.bind RawText.text?).getD ""

end DirEntry

mutual

inductive Listing where
  | failed (error : LoadError)
  | entries (children : List ListedEntry)

inductive ListedEntry where
  | file (path : Path)
  | directory (path : Path) (listing : Listing)

end

namespace ListedEntry

def toDirEntry : ListedEntry → DirEntry
  | file path => ⟨path, false⟩
  | directory path _ => ⟨path, true⟩

end ListedEntry

namespace Listing

def here : Listing → Except LoadError (List DirEntry)
  | failed e => .error e
  | entries children => .ok (children.map ListedEntry.toDirEntry)

end Listing

structure Provider (U : Type) where
  listing : Path → Listing
  isSource : Path → Bool
  fileUnit? : Path → Option U
  packageUnit? : (directory : Path) → (files : List Path) → Option U

end PatternLint
