/-!
This module contains texts that need not be UTF-8, as the names of files are: sequences of bytes. Such
a text is read in two ways, as the text that it is if it is one, and with marks in place of the bytes
that belong to no character.
-/

namespace PatternLint

namespace Text

def bytes (text : String) : List UInt8 :=
  text.toUTF8.data.toList

end Text

structure RawText where
  ofList ::
  toList : List UInt8
  deriving DecidableEq, Repr, Inhabited

namespace RawText

def ofString (text : String) : RawText :=
  ⟨Text.bytes text⟩

instance : Coe String RawText where
  coe := ofString

instance : Append RawText where
  append t u := ⟨t.toList ++ u.toList⟩

instance : Ord RawText where
  compare := compareOn toList

instance : Std.TransOrd RawText :=
  inferInstanceAs (Std.TransCmp (compareOn toList))

instance : Std.LawfulEqOrd RawText where
  compare_self {t} := show compare t.toList t.toList = .eq from Std.ReflCmp.compare_self
  eq_of_compare {t u} h := by
    cases t
    cases u
    exact congrArg ofList (Std.LawfulEqOrd.eq_of_compare h)

@[simp]
theorem toList_append (t u : RawText) : (t ++ u).toList = t.toList ++ u.toList :=
  rfl

theorem toList_inj {t u : RawText} : t.toList = u.toList ↔ t = u := by
  cases t
  cases u
  simp

@[simp]
theorem toList_empty : toList "" = [] :=
  rfl

theorem eq_empty_of_toList {t : RawText} (h : t.toList = []) : t = "" :=
  toList_inj.1 h

def isEmpty (t : RawText) : Bool :=
  t.toList.isEmpty

@[simp]
theorem isEmpty_iff {t : RawText} : t.isEmpty = true ↔ t = "" := by
  rw [← toList_inj]
  exact List.isEmpty_iff

def size (t : RawText) : Nat :=
  t.toList.length

def text? (t : RawText) : Option String :=
  String.fromUTF8? ⟨t.toList.toArray⟩

def character? (bytes : List UInt8) : Option Char :=
  bytes.toByteArray.utf8DecodeChar? 0

def secondBytes : UInt8 → Option (UInt8 × UInt8)
  | 0xe0 => some (0xa0, 0xbf)
  | 0xed => some (0x80, 0x9f)
  | 0xf0 => some (0x90, 0xbf)
  | 0xf4 => some (0x80, 0x8f)
  | b => if 0xe1 ≤ b && b ≤ 0xf3 then some (0x80, 0xbf) else none

def isContinuation (b : UInt8) : Bool :=
  0x80 ≤ b && b ≤ 0xbf

def brokenLength (first : UInt8) : (after : List UInt8) → Nat
  | [] => 1
  | second :: after =>
    match secondBytes first with
    | some (least, greatest) =>
      if least ≤ second && second ≤ greatest then
        if (after.head?.map isContinuation).getD false then 3 else 2
      else
        1
    | none => 1

def mark : Char :=
  '\uFFFD'

def charactersAfter : (skip : Nat) → List UInt8 → List Char
  | _, [] => []
  | skip + 1, _ :: bytes => charactersAfter skip bytes
  | 0, b :: bytes =>
    match character? (b :: bytes) with
    | some c => c :: charactersAfter (c.utf8Size - 1) bytes
    | none => mark :: charactersAfter (brokenLength b bytes - 1) bytes

def shown (t : RawText) : String :=
  String.ofList (charactersAfter 0 t.toList)

example : shown ⟨[0x2e, 0xff, 0xe2, 0x82, 0x61]⟩ = ".\uFFFD\uFFFDa" := by decide

end RawText

end PatternLint
