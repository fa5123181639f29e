import PatternLint.Text.Raw
import Mathlib.Data.List.Basic
import Mathlib.Tactic.SplitIfs

/-!
This module contains the law of byte order: comparing texts by their code points, as is done
everywhere, is comparing the bytes of their UTF-8 form.
-/

namespace PatternLint.Text

theorem bytes_eq_flatMap (text : String)
    : bytes text = text.toList.flatMap String.utf8EncodeChar := by
  unfold bytes
  rw [← List.toList_data_toByteArray (l := text.toList.flatMap String.utf8EncodeChar)]
  exact congrArg (fun b : ByteArray => b.data.toList) String.utf8Encode_toList.symm

theorem digits_lt {m n : Nat} (h : m < n) (hn : n < 0x110000)
    : m / 262144 % 8 < n / 262144 % 8
        ∨ m / 262144 % 8 = n / 262144 % 8 ∧ (m / 4096 % 64 < n / 4096 % 64
          ∨ m / 4096 % 64 = n / 4096 % 64 ∧ (m / 64 % 64 < n / 64 % 64
            ∨ m / 64 % 64 = n / 64 % 64 ∧ m % 64 < n % 64)) := by
  have hdigits (n : Nat) : n / 4096 = n / 64 / 64 ∧ n / 262144 = n / 64 / 64 / 64 := by
    rw [Nat.div_div_eq_div_mul, Nat.div_div_eq_div_mul]
    exact ⟨rfl, rfl⟩
  rw [(hdigits m).1, (hdigits n).1, (hdigits m).2, (hdigits n).2]
  omega

theorem toNat_ofNat_of_lt {n : Nat} (h : n < 256) : (UInt8.ofNat n).toNat = n := by
  rw [UInt8.toNat_ofNat', Nat.mod_eq_of_lt h]

theorem utf8EncodeChar_append_lt {c d : Char} (h : c < d) (cs ds : List UInt8)
    : String.utf8EncodeChar c ++ cs < String.utf8EncodeChar d ++ ds := by
  have hlt : c.val.toNat < d.val.toNat := h
  have hmax : d.val.toNat < 0x110000 := by
    have := d.valid
    unfold UInt32.isValidChar Nat.isValidChar at this
    omega
  have hdigits := digits_lt hlt hmax
  unfold String.utf8EncodeChar
  dsimp only
  -- the cases are the numbers of bytes of both characters
  split_ifs <;>
    simp (disch := omega) only [List.cons_append, List.nil_append, List.cons_lt_cons_iff,
      UInt8.lt_iff_toNat_lt, ← UInt8.toNat_inj, toNat_ofNat_of_lt] <;>
    omega

theorem flatMap_utf8EncodeChar_lt {cs ds : List Char} (h : cs < ds)
    : cs.flatMap String.utf8EncodeChar < ds.flatMap String.utf8EncodeChar := by
  induction h with
  | nil =>
    rename_i d ds
    rw [List.flatMap_nil, List.flatMap_cons]
    cases hbytes : String.utf8EncodeChar d with
    | nil => exact absurd hbytes String.utf8EncodeChar_ne_nil
    | cons byte bytes => exact .nil
  | rel hlt =>
    rw [List.flatMap_cons, List.flatMap_cons]
    exact utf8EncodeChar_append_lt hlt _ _
  | cons _ ih =>
    rw [List.flatMap_cons, List.flatMap_cons]
    exact List.append_left_lt ih

theorem bytes_lt_of_lt {text other : String} (h : text < other) : bytes text < bytes other := by
  rw [bytes_eq_flatMap, bytes_eq_flatMap]
  exact flatMap_utf8EncodeChar_lt h

theorem bytes_lt_of_compare {text other : String} (h : compare text other = .lt)
    : bytes text < bytes other := by
  apply bytes_lt_of_lt
  exact compareOfLessAndEq_eq_lt.1 h

end PatternLint.Text
