import PatternLint.SortedMap
import PatternLint.Text.Raw
import PatternLint.Text.Split

/-!
This module contains file paths, whose bytes need not be a text in UTF-8. A path keeps its bytes as
they are written, and is compared by its components, which leave out empty parts and all dots but a
leading one.
-/

namespace PatternLint

inductive Path.Component where
  | root
  | current
  | parent
  | normal (name : RawText)
  deriving DecidableEq, Repr

namespace Path.Component

def rank : Component → Nat
  | root => 0
  | current => 1
  | parent => 2
  | normal _ => 3

def nameOrEmpty : Component → RawText
  | normal name => name
  | _ => ""

instance : Ord Component where
  compare := compareLex (compareOn rank) (compareOn nameOrEmpty)

instance : Std.TransOrd Component :=
  inferInstanceAs (Std.TransCmp (compareLex (compareOn rank) (compareOn nameOrEmpty)))

theorem eq_of_rank_of_name {c d : Component} (hr : c.rank = d.rank)
    (hn : c.nameOrEmpty = d.nameOrEmpty) : c = d := by
  cases c <;> cases d <;> simp_all [rank, nameOrEmpty]

instance : Std.LawfulEqOrd Component where
  compare_self {c} :=
    show compareLex (compareOn rank) (compareOn nameOrEmpty) c c = .eq from Std.ReflCmp.compare_self
  eq_of_compare {c d} h := by
    have h : compareLex (compareOn rank) (compareOn nameOrEmpty) c d = .eq := h
    rw [compareLex, Ordering.then_eq_eq] at h
    exact eq_of_rank_of_name (Std.LawfulEqOrd.eq_of_compare h.1) (Std.LawfulEqOrd.eq_of_compare h.2)

end Path.Component

structure Path where
  text : RawText
  deriving DecidableEq, Repr, Inhabited

namespace Path

@[match_pattern]
abbrev slash : UInt8 :=
  0x2f

@[match_pattern]
abbrev dot : UInt8 :=
  0x2e

@[simp]
theorem toList_slash : RawText.toList "/" = [slash] :=
  rfl

@[simp]
theorem toList_dotSlash : RawText.toList "./" = [dot, slash] :=
  rfl

inductive Anchor where
  | root
  | current
  | nothing
  deriving DecidableEq, Repr

def Anchor.components : Anchor → List Component
  | root => [.root]
  | current => [.current]
  | nothing => []

def split (p : Path) : Anchor × List (List UInt8) :=
  match Text.splitAt slash p.text.toList with
  | [] :: part :: parts => (.root, part :: parts)
  | [dot] :: parts => (.current, parts)
  | parts => (.nothing, parts)

def componentOfPart? : List UInt8 → Option Component
  -- two slashes in a row have an empty part between them
  | [] | [dot] => none
  | [dot, dot] => some .parent
  | part => some (.normal (.ofList part))

def isIdle (part : List UInt8) : Bool :=
  (componentOfPart? part).isNone

def components (p : Path) : List Component :=
  let (anchor, parts) := p.split
  anchor.components ++ parts.filterMap componentOfPart?

def joinParts (parts : List (List UInt8)) : RawText :=
  .ofList ([slash].intercalate parts)

def ofParts (anchor : Anchor) (parts : List (List UInt8)) : Path :=
  match anchor with
  | .root => ⟨"/" ++ joinParts parts⟩
  | .current => ⟨if parts.isEmpty then "." else "./" ++ joinParts parts⟩
  | .nothing => ⟨joinParts parts⟩

def dropIdleEnd (parts : List (List UInt8)) : List (List UInt8) :=
  (parts.reverse.dropWhile isIdle).reverse

def isAbsolute (p : Path) : Bool :=
  p.text.toList.head? = some slash

def join (p q : Path) : Path :=
  if q.isAbsolute then
    q
  else if p.text.isEmpty || p.text.toList.getLast? = some slash then
    ⟨p.text ++ q.text⟩
  else
    ⟨p.text ++ "/" ++ q.text⟩

def fileName? (p : Path) : Option RawText :=
  match p.components.getLast? with
  | some (.normal name) => some name
  | _ => none

def parent? (p : Path) : Option Path :=
  let (anchor, parts) := p.split
  match (dropIdleEnd parts).reverse with
  | [] => if anchor = .current then some ⟨""⟩ else none
  | _ :: before => some (ofParts anchor (dropIdleEnd before.reverse))

def extensionOfName? (name : String) : Option String :=
  let reversed := name.toList.reverse
  match reversed.dropWhile (· != '.') with
  | [] | [_] => none
  | _ => if name == ".." then none else some (String.ofList (reversed.takeWhile (· != '.')).reverse)

def dropComponents (count : Nat) : List (List UInt8) → List (List UInt8)
  | [] => []
  | part :: parts =>
    if isIdle part then
      dropComponents count parts
    else
      match count with
      | 0 => part :: parts
      | count + 1 => dropComponents count parts

def stripPrefix? (base p : Path) : Option Path :=
  if base.components.isPrefixOf p.components then
    let (anchor, parts) := p.split
    let parts := dropIdleEnd parts
    match base.components.length with
    -- nothing is taken off, so the front stays as it is written
    | 0 => some (ofParts anchor parts)
    | count => some ⟨joinParts (dropComponents (count - anchor.components.length) parts)⟩
  else
    none

def shown (p : Path) : String :=
  p.text.shown

def isSame (p q : Path) : Bool :=
  p.components = q.components

end Path

abbrev PathMap (α : Type) :=
  SortedMap (List Path.Component) α

abbrev PathSet :=
  PathMap Path

namespace PathSet

def add (s : PathSet) (p : Path) : PathSet :=
  s.insertNew p.components p

def has (s : PathSet) (p : Path) : Bool :=
  s.contains p.components

def ofList (paths : List Path) : PathSet :=
  paths.foldl add .empty

end PathSet

end PatternLint
