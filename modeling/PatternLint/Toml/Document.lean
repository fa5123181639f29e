import PatternLint.Toml.Moment
import PatternLint.Toml.Table

/-!
This module reads TOML documents. A document is a list of statements, each on lines of its own,
which are carried out in order; a statement that does not fit those before it is an error.
-/

namespace PatternLint.Toml

structure Key where
  parents : List String
  name : String
  deriving DecidableEq, Repr, Inhabited

inductive Statement where
  | assign (key : Key) (v : Value)
  | header (key : Key)
  | rowHeader (key : Key)
  deriving Inhabited

def maxNesting : Nat :=
  79

def maxKeyParts : Nat :=
  79

def dropBlanks (cs : List Char) : List Char :=
  cs.dropWhile isLineBlank

def isKeyPart (c : Char) : Bool :=
  c.isAlphanum || c == '_' || c == '-'

def readKeyPart : Reader String := fun cs => do
  let cs := dropBlanks cs
  let (part, rest) ←
    match cs with
    | '"' :: _ | '\'' :: _ => readLineText cs
    | _ =>
      match cs.span isKeyPart with
      | ([], _) => none
      | (part, rest) => some (String.ofList part, rest)
  return (part, dropBlanks rest)

def readKeyParts : (bound : Nat) → Reader (List String)
  | 0, _ => none
  | bound + 1, cs => do
    let (part, rest) ← readKeyPart cs
    match rest with
    | '.' :: rest => (readKeyParts bound rest).map fun (parts, rest) => (part :: parts, rest)
    | _ => return ([part], rest)

def readKey : Reader Key := fun cs => do
  let (parts, rest) ← readKeyParts maxKeyParts cs
  return (⟨parts.dropLast, parts.getLast?.getD ""⟩, rest)

def dropLines : (inComment : Bool) → List Char → Option (List Char)
  | false, [] => some []
  | true, [] => none
  | inComment, c :: cs =>
    if c == '\n' then
      dropLines false cs
    else if c == '\r' then
      if cs.head? = some '\n' then dropLines false cs else none
    else if inComment then
      if isPlain c then dropLines true cs else none
    else if isLineBlank c then
      dropLines false cs
    else if c == '#' then
      dropLines true cs
    else
      some (c :: cs)

def readLineEnd (cs : List Char) : Option (List Char) :=
  let rest := match dropBlanks cs with
    | '#' :: cs => cs.dropWhile isPlain
    | cs => cs
  match rest with
  | [] => some []
  | '\n' :: rest | '\r' :: '\n' :: rest => some rest
  | _ => none

def readItems (readItem : Reader Value) : (bound : Nat) → Reader (List Value)
  | 0, _ => none
  | bound + 1, cs => do
    match ← dropLines false cs with
    | ']' :: rest => return ([], rest)
    | cs =>
      let (item, rest) ← readItem cs
      match ← dropLines false rest with
      | ',' :: rest =>
        let (items, rest) ← readItems readItem bound rest
        return (item :: items, rest)
      | ']' :: rest => return ([item], rest)
      | _ => none

def readAssignment (readItem : Reader Value) : Reader (Key × Value) := fun cs => do
  let (key, rest) ← readKey cs
  let (_, rest) ← readMark '=' rest
  let (v, rest) ← readItem (dropBlanks rest)
  return ((key, v), dropBlanks rest)

def readAssignments (readItem : Reader Value) : (bound : Nat) → Reader (List (Key × Value))
  | 0, _ => none
  | bound + 1, cs => do
    let (assignment, rest) ← readAssignment readItem cs
    match rest with
    | ',' :: rest =>
      let (assignments, rest) ← readAssignments readItem bound rest
      return (assignment :: assignments, rest)
    | '\x7d' :: rest => return ([assignment], rest)
    | _ => none

def inlineTable (assignments : List (Key × Value)) : Option Value := do
  let entries ← Entries.ofAssignments (assignments.map fun (key, v) => (key.parents, key.name, v))
  return .table (Node.entriesToValues entries)

def readInlineTable (readItem : Reader Value) : Reader Value := fun cs => do
  match dropBlanks cs with
  | '\x7d' :: rest => return (.table [], rest)
  | _ =>
    let (assignments, rest) ← readAssignments readItem (cs.length + 1) cs
    return (← inlineTable assignments, rest)

def readValue : (depth : Nat) → Reader Value
  | _, [] => none
  | depth, c :: cs =>
    match c with
    | '"' | '\'' => (readText (c :: cs)).map fun (s, rest) => (.text s, rest)
    | '[' =>
      match depth with
      | 0 => none
      | depth + 1 =>
        (readItems (readValue depth) (cs.length + 1) cs).map fun (vs, rest) => (.array vs, rest)
    | '\x7b' =>
      match depth with
      | 0 => none
      | depth + 1 => readInlineTable (readValue depth) cs
    | 't' => (readWord "rue".toList cs).map fun rest => (.boolean true, rest)
    | 'f' => (readWord "alse".toList cs).map fun rest => (.boolean false, rest)
    | _ => readMomentOrNumber (c :: cs)
where
  readWord (word cs : List Char) : Option (List Char) :=
    if word.isPrefixOf cs then some (cs.drop word.length) else none

def readStatement : Reader Statement := fun cs => do
  match cs with
  | '[' :: '[' :: cs =>
    let (key, rest) ← readKey cs
    let (_, rest) ← readMark ']' rest
    let (_, rest) ← readMark ']' rest
    return (.rowHeader key, ← readLineEnd rest)
  | '[' :: cs =>
    let (key, rest) ← readKey cs
    let (_, rest) ← readMark ']' rest
    return (.header key, ← readLineEnd rest)
  | _ =>
    let ((key, v), rest) ← readAssignment (readValue maxNesting) cs
    return (.assign key v, ← readLineEnd rest)

def startsStatement (cs : List Char) : Bool :=
  match cs with
  | [] | '#' :: _ | '\n' :: _ | '\r' :: _ => false
  | _ => true

def readStatements : (bound : Nat) → List Char → Option (List Statement)
  | 0, _ => none
  | bound + 1, cs =>
    match dropBlanks cs with
    | [] => some []
    | cs =>
      if startsStatement cs then do
        let (statement, rest) ← readStatement cs
        return statement :: (← readStatements bound rest)
      else do
        readStatements bound (← readLineEnd cs)

structure Draft where
  root : Entries
  current : List String

namespace Draft

def apply (d : Draft) : Statement → Option Draft
  | .assign key v => do
    let root ← Entries.change .mention (fun _ entries => entries.assign key.parents key.name v)
      d.current .header d.root
    return { d with root }
  | .header key => do
    return ⟨← d.root.openTable key.parents key.name, key.parents ++ [key.name]⟩
  | .rowHeader key => do
    return ⟨← d.root.openRow key.parents key.name, key.parents ++ [key.name]⟩

end Draft

def byteOrderMark : Char :=
  '\ufeff'

def dropMark : List Char → List Char
  | c :: cs => if c = byteOrderMark then cs else c :: cs
  | [] => []

def ofText? (text : String) : Option (List (String × Value)) := do
  let cs := dropMark text.toList
  let statements ← readStatements (cs.length + 1) cs
  let draft ← statements.foldlM Draft.apply ⟨[], []⟩
  return Node.entriesToValues draft.root

end PatternLint.Toml
