import PatternLint.Text.Char

/-!
This module contains operations on the characters of a text: trimming, and cutting at separators.
-/

namespace PatternLint.Text

def trim (cs : List Char) : List Char :=
  ((cs.dropWhile isBlank).reverse.dropWhile isBlank).reverse

def isAllBlank (cs : List Char) : Bool :=
  cs.all isBlank

def consToFirst {α : Type} (a : α) : List (List α) → List (List α)
  | [] => [[a]]
  | piece :: pieces => (a :: piece) :: pieces

def splitAt {α : Type} [DecidableEq α] (sep : α) : List α → List (List α)
  | [] => [[]]
  | a :: as => if a = sep then [] :: splitAt sep as else consToFirst a (splitAt sep as)

def splitAtColons : List Char → List (List Char)
  | [] => [[]]
  | [c] => [[c]]
  | c :: d :: cs =>
    if c = ':' ∧ d = ':' then
      [] :: splitAtColons cs
    else
      consToFirst c (splitAtColons (d :: cs))

def dropColons : List Char → List Char
  | ':' :: ':' :: cs => dropColons cs
  | cs => cs

def suffixes {α : Type} : List α → List (List α)
  | [] => [[]]
  | a :: as => (a :: as) :: suffixes as

def quoted (text : String) : String :=
  "`" ++ text ++ "`"

end PatternLint.Text
