import PatternLint.Proofs.Text.Bytes
import PatternLint.Proofs.Text.Split

/-!
This module contains the laws of texts that need not be UTF-8. One that is UTF-8 is the form of
exactly one text, which is what it is read and shown as. What any other one is shown as has a mark in
it.
-/

namespace PatternLint

namespace Text

section Ascii

variable {b : UInt8} {c : Char}

theorem mem_utf8EncodeChar_iff (h : b.toNat < 128)
    : b ∈ String.utf8EncodeChar c ↔ c.toNat = b.toNat := by
  have hmax : c.val.toNat < 0x110000 := by
    have := c.valid
    unfold UInt32.isValidChar Nat.isValidChar at this
    omega
  have htoNat : c.toNat = c.val.toNat := rfl
  unfold String.utf8EncodeChar
  dsimp only
  split_ifs <;>
    simp (disch := omega) only [List.mem_cons, List.not_mem_nil, or_false, ← UInt8.toNat_inj,
      toNat_ofNat_of_lt] <;>
    omega

theorem utf8EncodeChar_of_toNat (h : b.toNat < 128) (hc : c.toNat = b.toNat)
    : String.utf8EncodeChar c = [b] := by
  have hle : c.val.toNat ≤ 127 := by
    have htoNat : c.toNat = c.val.toNat := rfl
    omega
  unfold String.utf8EncodeChar
  dsimp only
  rw [if_pos hle, show c.val.toNat = b.toNat from hc, UInt8.ofNat_toNat]

theorem head?_utf8EncodeChar_append (h : b.toNat < 128) (bytes : List UInt8)
    : (String.utf8EncodeChar c ++ bytes).head? = some b ↔ c.toNat = b.toNat := by
  constructor
  . intro hhead
    rw [← mem_utf8EncodeChar_iff h]
    cases hbytes : String.utf8EncodeChar c with
    | nil => exact absurd hbytes String.utf8EncodeChar_ne_nil
    | cons first others =>
      rw [hbytes, List.cons_append, List.head?_cons, Option.some_inj] at hhead
      rw [hhead]
      exact List.mem_cons_self
  . intro hc
    rw [utf8EncodeChar_of_toNat h hc]
    rfl

theorem head?_bytes (h : b.toNat < 128) (hc : c.toNat = b.toNat) (text : String)
    : (bytes text).head? = some b ↔ text.toList.head? = some c := by
  rw [bytes_eq_flatMap]
  cases text.toList with
  | nil => simp
  | cons first others =>
    rw [List.flatMap_cons, head?_utf8EncodeChar_append h, List.head?_cons, Option.some_inj, ← hc]
    exact Char.toNat_inj

end Ascii

section Split

theorem foldr_consToFirst {α : Type} (as piece : List α) (pieces : List (List α))
    : as.foldr consToFirst (piece :: pieces) = (as ++ piece) :: pieces := by
  induction as with
  | nil => rfl
  | cons a as ih =>
    rw [List.foldr_cons, ih]
    rfl

theorem splitAt_append_of_not_mem {α : Type} [DecidableEq α] {sep : α} {as : List α} (h : sep ∉ as)
    (others : List α) : splitAt sep (as ++ others) = as.foldr consToFirst (splitAt sep others) := by
  induction as with
  | nil => rfl
  | cons a as ih =>
    rw [List.mem_cons, not_or] at h
    rw [List.cons_append, splitAt, if_neg (Ne.symm h.1), ih h.2, List.foldr_cons]

theorem splitAt_flatMap_utf8EncodeChar {sep : UInt8} {c : Char} (h : sep.toNat < 128)
    (hc : c.toNat = sep.toNat) (cs : List Char)
    : splitAt sep (cs.flatMap String.utf8EncodeChar)
        =
      (splitAt c cs).map fun piece => piece.flatMap String.utf8EncodeChar := by
  induction cs with
  | nil => rfl
  | cons d cs ih =>
    rw [List.flatMap_cons, splitAt.eq_2]
    by_cases hd : d = c
    . rw [hd, utf8EncodeChar_of_toNat h hc, if_pos rfl, List.singleton_append, splitAt, if_pos rfl, ih]
      rfl
    . have hnot : sep ∉ String.utf8EncodeChar d := by
        rw [mem_utf8EncodeChar_iff h, ← hc]
        exact fun htoNat => hd (Char.toNat_inj.1 htoNat)
      rw [if_neg hd, splitAt_append_of_not_mem hnot, ih]
      cases hpieces : splitAt c cs with
      | nil => exact absurd hpieces (splitAt_ne_nil c cs)
      | cons piece pieces =>
        rw [List.map_cons, foldr_consToFirst]
        rfl

theorem splitAt_bytes {sep : UInt8} {c : Char} (h : sep.toNat < 128) (hc : c.toNat = sep.toNat)
    (text : String)
    : splitAt sep (bytes text) = (splitAt c text.toList).map fun piece => bytes (.ofList piece) := by
  rw [bytes_eq_flatMap, splitAt_flatMap_utf8EncodeChar h hc]
  apply List.map_congr_left
  intro piece _
  rw [bytes_eq_flatMap, String.toList_ofList]

end Split

end Text

namespace RawText

open Text

theorem lt_of_compare_toList {as bs : List UInt8} (h : compare as bs = .lt) : as < bs := by
  induction as generalizing bs with
  | nil =>
    cases bs with
    | nil => contradiction
    | cons b bs => exact .nil
  | cons a as ih =>
    cases bs with
    | nil => contradiction
    | cons b bs =>
      rw [List.compare_cons_cons, Ordering.then_eq_lt] at h
      rcases h with h | ⟨heq, h⟩
      . exact .rel (Std.compare_eq_lt.1 h)
      . rw [Std.LawfulEqOrd.eq_of_compare heq]
        exact .cons (ih h)

theorem lt_of_compare {t u : RawText} (h : compare t u = .lt) : t.toList < u.toList :=
  lt_of_compare_toList h

theorem text?_eq_some_iff {t : RawText} {text : String} : t.text? = some text ↔ t = text := by
  unfold text? String.fromUTF8?
  constructor
  . intro h
    split at h
    . cases h
      exact toList_inj.1 rfl
    . contradiction
  . rintro rfl
    have hbytes : (⟨(ofString text).toList.toArray⟩ : ByteArray) = text.toByteArray := rfl
    rw [hbytes, dif_pos text.isValidUTF8]
    rfl

@[simp]
theorem text?_ofString (text : String) : text? text = some text :=
  text?_eq_some_iff.2 rfl

theorem ofString_inj {text other : String} : (text : RawText) = other ↔ text = other := by
  constructor
  . intro h
    have := congrArg text? h
    rwa [text?_ofString, text?_ofString, Option.some_inj] at this
  . rintro rfl
    rfl

theorem ofString_append (text other : String)
    : (ofString (text ++ other)) = ofString text ++ ofString other := by
  apply toList_inj.1
  unfold ofString
  rw [toList_append]
  simp only [bytes_eq_flatMap, String.toList_append, List.flatMap_append]

def IsText (t : RawText) : Prop :=
  ∃ text : String, t = text

theorem text?_isSome_iff {t : RawText} : t.text?.isSome = true ↔ t.IsText := by
  rw [Option.isSome_iff_exists]
  simp only [text?_eq_some_iff]
  rfl

instance (t : RawText) : Decidable t.IsText :=
  decidable_of_iff _ text?_isSome_iff

section IsText

variable {t u : RawText}

theorem IsText.append (h : t.IsText) (h' : u.IsText) : (t ++ u).IsText := by
  obtain ⟨text, rfl⟩ := h
  obtain ⟨other, rfl⟩ := h'
  exact ⟨text ++ other, (ofString_append text other).symm⟩

theorem IsText.of_mem_splitAt {sep : UInt8} {c : Char} (hsep : sep.toNat < 128)
    (hc : c.toNat = sep.toNat) (h : t.IsText) {piece : List UInt8}
    (hpiece : piece ∈ splitAt sep t.toList) : IsText (.ofList piece) := by
  obtain ⟨text, rfl⟩ := h
  rw [show (text : RawText).toList = bytes text from rfl, splitAt_bytes hsep hc] at hpiece
  obtain ⟨cs, _, rfl⟩ := List.mem_map.1 hpiece
  exact ⟨_, rfl⟩

end IsText

theorem character?_eq_some_iff {bytes : List UInt8} {c : Char}
    : character? bytes = some c ↔ ∃ others, bytes = String.utf8EncodeChar c ++ others := by
  unfold character?
  constructor
  . intro h
    obtain ⟨others, hothers⟩ := ByteArray.exists_of_utf8DecodeChar?_eq_some h
    refine ⟨others.data.toList, ?_⟩
    have := congrArg (fun b : ByteArray => b.data.toList) hothers
    simpa using this
  . rintro ⟨others, rfl⟩
    rw [List.toByteArray_append]
    exact ByteArray.utf8DecodeChar?_utf8EncodeChar_append

theorem charactersAfter_eq (skip : Nat) (bytes : List UInt8)
    : charactersAfter skip bytes = charactersAfter 0 (bytes.drop skip) := by
  induction bytes generalizing skip with
  | nil => simp [charactersAfter]
  | cons b bytes ih =>
    cases skip with
    | zero => rfl
    | succ skip =>
      rw [List.drop_succ_cons, ← ih]
      rfl

theorem drop_of_utf8EncodeChar {b : UInt8} {bytes others : List UInt8} {c : Char}
    (h : b :: bytes = String.utf8EncodeChar c ++ others) : bytes.drop (c.utf8Size - 1) = others := by
  have hlength : (String.utf8EncodeChar c).length = c.utf8Size := String.length_utf8EncodeChar c
  cases hbytes : String.utf8EncodeChar c with
  | nil => exact absurd hbytes String.utf8EncodeChar_ne_nil
  | cons first rest =>
    rw [hbytes] at h hlength
    rw [List.cons_append, List.cons.injEq] at h
    rw [List.length_cons] at hlength
    rw [h.2, ← hlength, Nat.add_sub_cancel, List.drop_left]

theorem charactersAfter_utf8EncodeChar (c : Char) (bytes : List UInt8)
    : charactersAfter 0 (String.utf8EncodeChar c ++ bytes) = c :: charactersAfter 0 bytes := by
  cases hbytes : String.utf8EncodeChar c ++ bytes with
  | nil => exact absurd (List.append_eq_nil_iff.1 hbytes).1 String.utf8EncodeChar_ne_nil
  | cons first others =>
    have hchar : character? (first :: others) = some c :=
      character?_eq_some_iff.2 ⟨bytes, hbytes.symm⟩
    rw [charactersAfter, hchar]
    dsimp only
    rw [charactersAfter_eq, drop_of_utf8EncodeChar hbytes.symm]

theorem charactersAfter_flatMap (cs : List Char)
    : charactersAfter 0 (cs.flatMap String.utf8EncodeChar) = cs := by
  induction cs with
  | nil => rfl
  | cons c cs ih => rw [List.flatMap_cons, charactersAfter_utf8EncodeChar, ih]

@[simp]
theorem shown_ofString (text : String) : shown text = text := by
  unfold shown ofString
  rw [bytes_eq_flatMap, charactersAfter_flatMap, String.ofList_toList]

theorem IsText.ofString_shown {t : RawText} (h : t.IsText) : (t.shown : RawText) = t := by
  obtain ⟨text, rfl⟩ := h
  rw [shown_ofString]

theorem flatMap_charactersAfter {skip : Nat} {bytes : List UInt8} (h : mark ∉ charactersAfter skip bytes)
    : (charactersAfter skip bytes).flatMap String.utf8EncodeChar = bytes.drop skip := by
  fun_induction charactersAfter skip bytes with
  | case1 => simp
  | case2 skip b bytes ih => exact ih h
  | case3 b bytes c hc ih =>
    obtain ⟨others, hothers⟩ := character?_eq_some_iff.1 hc
    rw [List.mem_cons, not_or] at h
    rw [List.flatMap_cons, ih h.2, drop_of_utf8EncodeChar hothers, List.drop_zero, hothers]
  | case4 b bytes _ ih => exact absurd List.mem_cons_self h

theorem eq_of_shown {t : RawText} {text : String} (h : t.shown = text) (hmark : mark ∉ text.toList)
    : t = text := by
  subst h
  unfold shown at hmark ⊢
  rw [String.toList_ofList] at hmark
  apply toList_inj.1
  unfold ofString
  rw [bytes_eq_flatMap, String.toList_ofList, flatMap_charactersAfter hmark, List.drop_zero]

theorem head?_shown {b : UInt8} {c : Char} (h : b.toNat < 128) (hc : c.toNat = b.toNat) (t : RawText)
    : t.shown.toList.head? = some c ↔ t.toList.head? = some b := by
  unfold shown
  rw [String.toList_ofList]
  cases t.toList with
  | nil => simp [charactersAfter]
  | cons first others =>
    rw [charactersAfter]
    cases hchar : character? (first :: others) with
    | some d =>
      obtain ⟨after, hafter⟩ := character?_eq_some_iff.1 hchar
      rw [hafter, head?_utf8EncodeChar_append h, ← hc, List.head?_cons, Option.some_inj]
      exact Char.toNat_inj.symm
    | none =>
      rw [List.head?_cons, List.head?_cons, Option.some_inj, Option.some_inj]
      constructor
      . rintro rfl
        rw [← hc] at h
        contradiction
      . rintro rfl
        have hsome : character? (first :: others) = some c := by
          rw [character?_eq_some_iff, utf8EncodeChar_of_toNat h hc]
          exact ⟨others, rfl⟩
        rw [hchar] at hsome
        contradiction

end RawText

end PatternLint
