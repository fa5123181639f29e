/-!
This module contains the token trees that source text is read into: identifiers, punctuation,
literals, lifetimes and bracketed groups, each with the place where it starts.
-/

namespace PatternLint

structure Location where
  line : Nat
  column : Nat
  deriving DecidableEq, Repr, Inhabited

namespace Location

def start : Location :=
  ⟨1, 1⟩

def after (l : Location) (c : Char) : Location :=
  if c == '\n' then ⟨l.line + 1, 1⟩ else ⟨l.line, l.column + 1⟩

end Location

namespace Syntax

inductive Delimiter where
  | parenthesis
  | brace
  | bracket
  deriving DecidableEq, Repr, Inhabited

inductive Literal where
  | string
  | byteString
  | cString
  | byte
  | char
  | integer (text : String)
  | float (text : String)
  deriving DecidableEq, Repr

/--
A token, or a bracketed group of token trees. A punctuation character is `joint` when another one
follows without a blank, so `::` is a joint `:` before a second `:`.
-/
inductive TokenTree where
  | ident (name : String) (location : Location)
  | punct (char : Char) (joint : Bool) (location : Location)
  | literal (literal : Literal) (location : Location)
  | lifetime (name : String) (location : Location)
  | group (delimiter : Delimiter) (opening closing : Location) (trees : List TokenTree)
  deriving Repr

namespace TokenTree

def location : TokenTree → Location
  | ident _ l | punct _ _ l | literal _ l | lifetime _ l => l
  | group _ opening _ _ => opening

mutual

def size : TokenTree → Nat
  | group _ _ _ trees => listSize trees + 2
  | _ => 1

def listSize : List TokenTree → Nat
  | [] => 0
  | tree :: trees => tree.size + listSize trees

end

theorem listSize_drop_le (count : Nat) (trees : List TokenTree)
    : listSize (trees.drop count) ≤ listSize trees := by
  induction trees generalizing count with
  | nil => simp only [List.drop_nil, Nat.le_refl]
  | cons tree trees ih =>
    cases count with
    | zero => exact Nat.le_refl _
    | succ count =>
      rw [List.drop_succ_cons, listSize]
      exact Nat.le_trans (ih count) (Nat.le_add_left ..)

end TokenTree

end Syntax

end PatternLint
