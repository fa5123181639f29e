import Mathlib.Data.List.Forall2
import Mathlib.Data.List.TakeDrop
import Mathlib.Data.List.TakeWhile
import PatternLint.Report.Json
import PatternLint.Toml.Text

/-!
This module contains a reader of documents in JSON, and the law that it gives back each document that is
printed. It takes blanks between tokens, all escapes, and pairs of numbers for characters that have no
number of four digits. Of the numbers it takes those without a sign, a fraction and an exponent.
-/

namespace PatternLint.Report.Json

open Toml (Reader)

/-! ### The reader -/

def isSpace (c : Char) : Bool :=
  c == ' ' || c == '\n' || c == '\r' || c == '\t'

def dropSpaces (cs : List Char) : List Char :=
  cs.dropWhile isSpace

def charOfEscape? : Char → Option Char
  | '"' => some '"'
  | '\\' => some '\\'
  | '/' => some '/'
  | 'b' => some '\x08'
  | 'f' => some '\x0c'
  | 'n' => some '\n'
  | 'r' => some '\r'
  | 't' => some '\t'
  | _ => none

def codeOfDigits? (digits : List Char) : Option Nat :=
  if digits.all Text.isHexDigit then
    some (digits.foldl (fun n c => 16 * n + Text.hexDigitValue c) 0)
  else
    none

def isFirstOfPair (code : Nat) : Bool :=
  0xd800 ≤ code && code < 0xdc00

def charOfPair? (first second : Nat) : Option Char :=
  if 0xdc00 ≤ second ∧ second < 0xe000 then
    Toml.Escape.charOfCode? (0x10000 + 0x400 * (first - 0xd800) + (second - 0xdc00))
  else
    none

def readChars : (first : Option Nat) → Reader (List Char)
  | none, '"' :: cs => some ([], cs)
  | first, '\\' :: 'u' :: a :: b :: c :: d :: cs => do
    let code ← codeOfDigits? [a, b, c, d]
    match first with
    | none =>
      if isFirstOfPair code then
        readChars (some code) cs
      else
        let char ← Toml.Escape.charOfCode? code
        (readChars none cs).map fun (chars, rest) => (char :: chars, rest)
    | some first =>
      let char ← charOfPair? first code
      (readChars none cs).map fun (chars, rest) => (char :: chars, rest)
  | none, '\\' :: c :: cs => do
    let char ← charOfEscape? c
    (readChars none cs).map fun (chars, rest) => (char :: chars, rest)
  | none, c :: cs =>
    if c = '\\' ∨ c.toNat < 32 then
      none
    else
      (readChars none cs).map fun (chars, rest) => (c :: chars, rest)
  | _, _ => none

def readText : Reader String
  | '"' :: cs => (readChars none cs).map fun (chars, rest) => (String.ofList chars, rest)
  | _ => none

def readNumber : Reader Nat := fun cs =>
  let (digits, rest) := cs.span Char.isDigit
  if digits = [] ∨ digits.head? = some '0' ∧ digits ≠ ['0'] then
    none
  else
    some (Nat.ofDigitChars 10 digits 0, rest)

def readParts {α : Type} (readPart : Reader α) (right : Char) : (bound : Nat) → Reader (List α)
  | 0, _ => none
  | bound + 1, cs => do
    let (part, rest) ← readPart cs
    match dropSpaces rest with
    | ',' :: rest => (readParts readPart right bound rest).map fun (parts, rest) => (part :: parts, rest)
    | c :: rest => if c = right then some ([part], rest) else none
    | [] => none

def readEnclosed {α : Type} (readPart : Reader α) (right : Char) : Reader (List α) := fun cs =>
  if (dropSpaces cs).head? = some right then
    some ([], (dropSpaces cs).tail)
  else
    readParts readPart right cs.length cs

def readField (readValue : Reader Json) : Reader (String × Json) := fun cs => do
  let (key, rest) ← readText (dropSpaces cs)
  match dropSpaces rest with
  | ':' :: rest => (readValue rest).map fun (value, rest) => ((key, value), rest)
  | _ => none

def readValue : (depth : Nat) → Reader Json
  | depth, cs =>
    match dropSpaces cs with
    | 'n' :: 'u' :: 'l' :: 'l' :: rest => some (.null, rest)
    | '"' :: rest => (readText ('"' :: rest)).map fun (s, rest) => (.text s, rest)
    | '[' :: rest =>
      match depth with
      | 0 => none
      | depth + 1 =>
        (readEnclosed (readValue depth) ']' rest).map fun (items, rest) => (.array items, rest)
    | '\x7b' :: rest =>
      match depth with
      | 0 => none
      | depth + 1 =>
        (readEnclosed (readField (readValue depth)) '\x7d' rest).map
          fun (fields, rest) => (.object fields, rest)
    | rest => (readNumber rest).map fun (n, rest) => (.number n, rest)

def ofText? (text : String) : Option Json := do
  let (document, rest) ← readValue text.length text.toList
  if dropSpaces rest = [] then some document else none

/-! ### Texts -/

theorem readChars_plain {c : Char} (hquote : c ≠ '"') (hbackslash : c ≠ '\\') (hlow : 32 ≤ c.toNat)
    (cs : List Char)
    : readChars none (c :: cs) = (readChars none cs).map fun (chars, rest) => (c :: chars, rest) := by
  rw [readChars, if_neg]
  . rw [not_or, Nat.not_lt]
    exact ⟨hbackslash, hlow⟩
  . exact hquote
  . rintro _ _ _ _ _ rfl
    contradiction
  . rintro _ _ rfl
    contradiction

theorem charOfCode?_toNat (c : Char) : Toml.Escape.charOfCode? c.toNat = some c := by
  have hvalid : c.toNat.isValidChar := c.valid
  unfold Toml.Escape.charOfCode?
  rw [if_pos hvalid, Char.ofNat_toNat]

theorem readChars_escapeChar (c : Char) (rest : List Char)
    : readChars none (escapeChar c ++ rest)
        =
      (readChars none rest).map fun (chars, rest) => (c :: chars, rest) := by
  have hcode : ∀ n < 32, codeOfDigits? ['0', '0', Nat.digitChar (n / 16), Nat.digitChar (n % 16)] = some n := by
    decide
  unfold escapeChar
  split
  . rfl
  . rfl
  . rfl
  . rfl
  . rfl
  . rfl
  . rfl
  . next hquote hbackslash _ _ _ _ _ =>
    split
    . next hlow =>
      have hfirst : isFirstOfPair c.toNat = false := by
        unfold isFirstOfPair
        rw [Bool.and_eq_false_iff, decide_eq_false_iff_not]
        omega
      unfold numericEscape
      simp only [List.cons_append, List.nil_append]
      rw [readChars]
      simp [hcode _ hlow, hfirst, charOfCode?_toNat]
    . next hlow => exact readChars_plain hquote hbackslash (Nat.not_lt.1 hlow) rest

theorem readChars_flatMap (cs rest : List Char)
    : readChars none (cs.flatMap escapeChar ++ '"' :: rest) = some (cs, rest) := by
  induction cs with
  | nil => simp [readChars]
  | cons c cs ih =>
    rw [List.flatMap_cons, List.append_assoc, readChars_escapeChar, ih]
    rfl

theorem readText_quote (s : String) (rest : List Char) : readText (quote s ++ rest) = some (s, rest) := by
  unfold quote
  rw [List.cons_append, List.cons_append, List.append_assoc, readText, List.singleton_append,
    readChars_flatMap]
  simp

/-! ### Numbers -/

def StopsDigits (rest : List Char) : Prop :=
  ∀ c, rest.head? = some c → c.isDigit = false

theorem head?_toDigits_ne_zero {n : Nat} (h : 0 < n) : (Nat.toDigits 10 n).head? ≠ some '0' := by
  induction n using Nat.strongRecOn with
  | ind n ih =>
    rw [Nat.toDigits_eq_if (by decide)]
    split
    . next hlt =>
      have hdigit : ∀ d < 10, 0 < d → [Nat.digitChar d].head? ≠ some '0' := by
        decide
      exact hdigit n hlt h
    . next hge =>
      rw [List.head?_append_of_ne_nil _ Nat.toDigits_ne_nil]
      apply ih
      . omega
      . omega

theorem readNumber_toString (n : Nat) {rest : List Char} (h : StopsDigits rest)
    : readNumber ((toString n).toList ++ rest) = some (n, rest) := by
  have hdigits : (toString n).toList = Nat.toDigits 10 n := by
    simp
  have hall : ∀ c ∈ Nat.toDigits 10 n, c.isDigit = true := by
    intro c hc
    exact Nat.isDigit_of_mem_toDigits (by decide) (by decide) hc
  have hspan : (Nat.toDigits 10 n ++ rest).span Char.isDigit = (Nat.toDigits 10 n, rest) := by
    rw [List.span_eq_takeWhile_dropWhile, List.takeWhile_append_of_pos hall, List.dropWhile_append_of_pos hall]
    cases rest with
    | nil => simp
    | cons c rest => simp [h c rfl]
  unfold readNumber
  rw [hdigits, hspan]
  dsimp only
  rw [if_neg, Nat.ofDigitChars_ten_toDigits]
  rw [not_or, not_and, not_not]
  refine ⟨Nat.toDigits_ne_nil, ?_⟩
  intro hzero
  by_cases hn : n = 0
  . rw [hn]
    rfl
  . exact absurd hzero (head?_toDigits_ne_zero (Nat.pos_of_ne_zero hn))

/-! ### Sequences -/

theorem dropSpaces_append {front : List Char} (h : ∀ c ∈ front, isSpace c = true) (cs : List Char)
    : dropSpaces (front ++ cs) = dropSpaces cs := by
  exact List.dropWhile_append_of_pos h

theorem isSpace_of_mem_indent {depth : Nat} {c : Char} (h : c ∈ indent depth) : isSpace c = true := by
  rw [List.eq_of_mem_replicate h]
  rfl

def IsReadAs {α : Type} (read : Reader α) (a : α) (line : List Char) : Prop :=
  ∀ front rest, (∀ c ∈ front, isSpace c = true) → StopsDigits rest →
    read (front ++ line ++ rest) = some (a, rest)

theorem IsReadAs.eq_some {α : Type} {read : Reader α} {a : α} {line : List Char} (h : IsReadAs read a line)
    {front : List Char} (hfront : ∀ c ∈ front, isSpace c = true) {c : Char} (hc : c.isDigit = false)
    (rest : List Char) : read (front ++ (line ++ c :: rest)) = some (a, c :: rest) := by
  rw [← List.append_assoc]
  apply h front _ hfront
  simpa [StopsDigits] using hc

section Parts

variable {α : Type} {readPart : Reader α} {right : Char}

theorem readParts_last {bound : Nat} {cs behind rest : List Char} {part : α} (hcomma : right ≠ ',')
    (hread : readPart cs = some (part, behind)) (hbehind : dropSpaces behind = right :: rest)
    : readParts readPart right (bound + 1) cs = some ([part], rest) := by
  rw [readParts, hread]
  simp [hbehind]

theorem readParts_more {bound : Nat} {cs behind rest : List Char} {part : α}
    (hread : readPart cs = some (part, behind)) (hbehind : dropSpaces behind = ',' :: rest)
    : readParts readPart right (bound + 1) cs
        =
      (readParts readPart right bound rest).map fun (parts, rest) => (part :: parts, rest) := by
  rw [readParts, hread]
  simp [hbehind]

def body (depth : Nat) (lines : List (List Char)) (right : Char) : List Char :=
  [',', '\n'].intercalate (lines.map fun line => indent (depth + 1) ++ line) ++ '\n' :: indent depth ++ [right]

theorem enclose_eq {lines : List (List Char)} (h : lines ≠ []) (depth : Nat) (left : Char)
    : enclose depth left right lines = left :: '\n' :: body depth lines right := by
  unfold enclose body
  rw [if_neg (by simpa using h)]
  simp

theorem body_singleton (depth : Nat) (line : List Char)
    : body depth [line] right = indent (depth + 1) ++ (line ++ '\n' :: (indent depth ++ [right])) := by
  simp [body]

theorem body_cons (depth : Nat) (line next : List Char) (lines : List (List Char))
    : body depth (line :: next :: lines) right
        =
      indent (depth + 1) ++ (line ++ ',' :: '\n' :: body depth (next :: lines) right) := by
  simp [body]

theorem readParts_body (depth : Nat) (hright : isSpace right = false) (hcomma : right ≠ ',') {parts : List α}
    {lines : List (List Char)} (h : List.Forall₂ (IsReadAs readPart) parts lines) (hne : lines ≠ [])
    {front : List Char} (hfront : ∀ c ∈ front, isSpace c = true) {bound : Nat} (hbound : parts.length ≤ bound)
    (rest : List Char)
    : readParts readPart right bound (front ++ (body depth lines right ++ rest)) = some (parts, rest) := by
  induction h generalizing front bound with
  | nil => contradiction
  | @cons part line parts lines hpart hparts ih =>
    obtain ⟨bound, rfl⟩ := Nat.exists_eq_add_one.2 (Nat.lt_of_lt_of_le (Nat.succ_pos _) hbound)
    have hblanks : ∀ c ∈ front ++ indent (depth + 1), isSpace c = true := by
      intro c hc
      exact (List.mem_append.1 hc).elim (hfront c) isSpace_of_mem_indent
    cases lines with
    | nil =>
      cases hparts
      have hread := hpart.eq_some hblanks (by decide : '\n'.isDigit = false) (indent depth ++ right :: rest)
      have hbehind : dropSpaces ('\n' :: (indent depth ++ right :: rest)) = right :: rest := by
        have hbreak : ∀ c ∈ ['\n'] ++ indent depth, isSpace c = true := by
          intro c hc
          rcases List.mem_append.1 hc with hc | hc
          . rw [List.mem_singleton.1 hc]
            rfl
          . exact isSpace_of_mem_indent hc
        have hdrop := dropSpaces_append hbreak (right :: rest)
        rw [List.append_assoc] at hdrop
        rw [← List.singleton_append, hdrop, dropSpaces, List.dropWhile_cons_of_neg (by simp [hright])]
      rw [body_singleton]
      simp only [List.append_assoc, List.cons_append, List.nil_append] at hread ⊢
      exact readParts_last hcomma hread hbehind
    | cons next lines =>
      have hread := hpart.eq_some hblanks (by decide : ','.isDigit = false)
        ('\n' :: (body depth (next :: lines) right ++ rest))
      rw [body_cons]
      simp only [List.append_assoc, List.cons_append] at hread ⊢
      rw [readParts_more hread rfl]
      have hrest := @ih (by simp) ['\n'] (List.forall_mem_singleton.2 rfl) bound (Nat.le_of_succ_le_succ hbound)
      rw [List.singleton_append] at hrest
      rw [hrest]
      rfl

theorem length_add_length_le (depth : Nat) (lines : List (List Char)) (right : Char)
    : lines.flatten.length + lines.length ≤ (body depth lines right).length := by
  induction lines with
  | nil => simp
  | cons line lines ih =>
    cases lines with
    | nil =>
      rw [body_singleton]
      simp only [indent, List.flatten_cons, List.flatten_nil, List.length_append, List.length_cons,
        List.length_nil, List.length_replicate]
      omega
    | cons next lines =>
      rw [body_cons, List.flatten_cons]
      simp only [List.length_append, List.length_cons] at ih ⊢
      omega

def Declines (readPart : Reader α) (right : Char) : Prop :=
  ∀ cs, (dropSpaces cs).head? = some right → readPart cs = none

theorem readEnclosed_of_readParts {cs rest : List Char} {parts : List α} (hdeclines : Declines readPart right)
    (h : readParts readPart right cs.length cs = some (parts, rest))
    : readEnclosed readPart right cs = some (parts, rest) := by
  unfold readEnclosed
  split
  . next hright =>
    have hnone := hdeclines cs hright
    cases hlength : cs.length with
    | zero =>
      rw [hlength] at h
      contradiction
    | succ bound =>
      rw [hlength, readParts, hnone] at h
      contradiction
  . exact h

theorem readEnclosed_enclose (depth : Nat) {left : Char} (hright : isSpace right = false) (hcomma : right ≠ ',')
    (hdeclines : Declines readPart right) {parts : List α} {lines : List (List Char)}
    (h : List.Forall₂ (IsReadAs readPart) parts lines) (rest : List Char)
    : ∃ inside, enclose depth left right lines ++ rest = left :: inside
        ∧ readEnclosed readPart right inside = some (parts, rest) := by
  by_cases hne : lines = []
  . subst hne
    cases h
    refine ⟨right :: rest, rfl, ?_⟩
    have hdrop : dropSpaces (right :: rest) = right :: rest := List.dropWhile_cons_of_neg (by simp [hright])
    unfold readEnclosed
    rw [hdrop, List.head?_cons, if_pos rfl, List.tail_cons]
  . refine ⟨'\n' :: (body depth lines right ++ rest), ?_, ?_⟩
    . rw [enclose_eq hne]
      rfl
    . apply readEnclosed_of_readParts hdeclines
      have hbound := length_add_length_le depth lines right
      have hbreak : ∀ c ∈ ['\n'], isSpace c = true := List.forall_mem_singleton.2 rfl
      apply readParts_body depth hright hcomma h hne hbreak
      rw [h.length_eq]
      simp only [List.length_cons, List.length_append]
      omega

end Parts

/-! ### Documents -/

mutual

def count : Json → Nat
  | null | number _ | text _ => 1
  | array items => 1 + countItems items
  | object fields => 1 + countFields fields

def countItems : List Json → Nat
  | [] => 0
  | item :: items => count item + countItems items

def countFields : List (String × Json) → Nat
  | [] => 0
  | (_, value) :: fields => count value + countFields fields

end

theorem isReadAs_readField {read : Reader Json} {value : Json} {line : List Char} (h : IsReadAs read value line)
    (key : String) : IsReadAs (readField read) (key, value) (quote key ++ ':' :: ' ' :: line) := by
  intro front rest hfront hrest
  have hquote : dropSpaces (quote key ++ ':' :: ' ' :: line ++ rest) = quote key ++ ':' :: ' ' :: line ++ rest := by
    rfl
  have hread := h [' '] rest (List.forall_mem_singleton.2 rfl) hrest
  unfold readField
  rw [List.append_assoc, dropSpaces_append hfront, hquote, List.append_assoc, readText_quote]
  simp only [List.cons_append, List.nil_append] at hread ⊢
  show (read (' ' :: (line ++ rest))).map _ = _
  rw [hread]
  rfl

theorem declines_readValue (depth : Nat) : Declines (readValue depth) ']' := by
  intro cs hcs
  obtain ⟨rest, hrest⟩ := List.head?_eq_some_iff.1 hcs
  unfold readValue
  rw [hrest]
  rfl

theorem declines_readField (read : Reader Json) : Declines (readField read) '\x7d' := by
  intro cs hcs
  obtain ⟨rest, hrest⟩ := List.head?_eq_some_iff.1 hcs
  unfold readField
  rw [hrest]
  rfl

theorem isReadAs_readValue {depth : Nat} {v : Json} {line : List Char}
    (h : ∀ rest, StopsDigits rest → readValue depth (line ++ rest) = some (v, rest))
    : IsReadAs (readValue depth) v line := by
  intro front rest hfront hrest
  rw [← h rest hrest, List.append_assoc]
  conv => lhs; unfold readValue
  rw [dropSpaces_append hfront]
  conv => rhs; unfold readValue

theorem readValue_digit (depth : Nat) {d : Char} (hd : d.isDigit = true) (cs : List Char)
    : readValue depth (d :: cs) = (readNumber (d :: cs)).map fun (n, rest) => (.number n, rest) := by
  have hmark (c : Char) (hc : c.isDigit = false) : d ≠ c := by
    rintro rfl
    rw [hc] at hd
    contradiction
  have hspace : dropSpaces (d :: cs) = d :: cs := by
    apply List.dropWhile_cons_of_neg
    simp [isSpace, hmark]
  unfold readValue
  rw [hspace]
  split
  . next heq => exact absurd (List.cons.inj heq).1 (hmark 'n' (by decide))
  . next heq => exact absurd (List.cons.inj heq).1 (hmark '"' (by decide))
  . next heq => exact absurd (List.cons.inj heq).1 (hmark '[' (by decide))
  . next heq => exact absurd (List.cons.inj heq).1 (hmark '\x7b' (by decide))
  . rfl

theorem readValue_toString (depth n : Nat) {rest : List Char} (h : StopsDigits rest)
    : readValue depth ((toString n).toList ++ rest) = some (.number n, rest) := by
  have hread := readNumber_toString n h
  have hdigits : (toString n).toList = Nat.toDigits 10 n := by
    simp
  obtain ⟨d, ds, hds⟩ := List.exists_cons_of_ne_nil (@Nat.toDigits_ne_nil n 10)
  have hd : d.isDigit = true := by
    apply @Nat.isDigit_of_mem_toDigits 10 n d (by decide) (by decide)
    rw [hds]
    exact List.mem_cons_self
  rw [hdigits, hds] at hread ⊢
  rw [List.cons_append, readValue_digit depth hd, ← List.cons_append, hread]
  rfl

mutual

theorem isReadAs_print (v : Json) (depth : Nat) (indentation : Nat) (h : v.count ≤ depth)
    : IsReadAs (readValue depth) v (print indentation v) := by
  apply isReadAs_readValue
  intro rest hrest
  cases v with
  | null =>
    have hnull : "null".toList = ['n', 'u', 'l', 'l'] := by
      decide
    rw [print, hnull]
    unfold readValue
    rfl
  | number n => exact readValue_toString depth n hrest
  | text s =>
    rw [print]
    unfold readValue
    show (readText (quote s ++ rest)).map _ = _
    rw [readText_quote]
    rfl
  | array items =>
    rw [count] at h
    obtain ⟨depth, rfl⟩ := Nat.exists_eq_add_one.2 (Nat.lt_of_lt_of_le (by omega) h)
    have hitems := isReadAs_printItems items depth indentation (by omega)
    obtain ⟨inside, hinside, hread⟩ := readEnclosed_enclose indentation (by decide) (by decide)
      (declines_readValue depth) hitems rest
    rw [print, hinside]
    show (readEnclosed (readValue depth) ']' inside).map _ = _
    rw [hread]
    rfl
  | object fields =>
    rw [count] at h
    obtain ⟨depth, rfl⟩ := Nat.exists_eq_add_one.2 (Nat.lt_of_lt_of_le (by omega) h)
    have hfields := isReadAs_printFields fields depth indentation (by omega)
    obtain ⟨inside, hinside, hread⟩ := readEnclosed_enclose indentation (by decide) (by decide)
      (declines_readField _) hfields rest
    rw [print, hinside]
    show (readEnclosed (readField (readValue depth)) '\x7d' inside).map _ = _
    rw [hread]
    rfl

theorem isReadAs_printItems (items : List Json) (depth : Nat) (indentation : Nat) (h : countItems items ≤ depth)
    : List.Forall₂ (IsReadAs (readValue depth)) items (printItems indentation items) := by
  cases items with
  | nil => exact .nil
  | cons item items =>
    rw [countItems] at h
    exact .cons (isReadAs_print item depth _ (by omega)) (isReadAs_printItems items depth _ (by omega))

theorem isReadAs_printFields (fields : List (String × Json)) (depth : Nat) (indentation : Nat)
    (h : countFields fields ≤ depth)
    : List.Forall₂ (IsReadAs (readField (readValue depth))) fields (printFields indentation fields) := by
  match fields with
  | [] => exact .nil
  | (key, value) :: fields =>
    rw [countFields] at h
    exact .cons (isReadAs_readField (isReadAs_print value depth _ (by omega)) key)
      (isReadAs_printFields fields depth _ (by omega))

end

theorem length_flatten_lt_length_enclose (depth : Nat) (left right : Char) (lines : List (List Char))
    : lines.flatten.length < (enclose depth left right lines).length := by
  by_cases hne : lines = []
  . subst hne
    exact Nat.succ_pos _
  . have hbody := length_add_length_le depth lines right
    rw [enclose_eq hne, List.length_cons, List.length_cons]
    omega

mutual

theorem count_le_length_print (v : Json) (indentation : Nat) : v.count ≤ (print indentation v).length := by
  cases v with
  | null =>
    rw [count, print]
    decide
  | number n =>
    have hdigits : (toString n).toList = Nat.toDigits 10 n := by
      simp
    rw [count, print, hdigits]
    exact Nat.length_toDigits_pos
  | text s =>
    rw [count, print]
    exact Nat.succ_pos _
  | array items =>
    have hitems := countItems_le_length items indentation
    have hlines := length_flatten_lt_length_enclose indentation '[' ']' (printItems indentation items)
    rw [count, print]
    omega
  | object fields =>
    have hfields := countFields_le_length fields indentation
    have hlines := length_flatten_lt_length_enclose indentation '\x7b' '\x7d' (printFields indentation fields)
    rw [count, print]
    omega

theorem countItems_le_length (items : List Json) (indentation : Nat)
    : countItems items ≤ (printItems indentation items).flatten.length := by
  cases items with
  | nil => exact Nat.le_refl _
  | cons item items =>
    have hitem := count_le_length_print item (indentation + 1)
    have hitems := countItems_le_length items indentation
    rw [countItems, printItems, List.flatten_cons, List.length_append]
    omega

theorem countFields_le_length (fields : List (String × Json)) (indentation : Nat)
    : countFields fields ≤ (printFields indentation fields).flatten.length := by
  match fields with
  | [] => exact Nat.le_refl _
  | (key, value) :: fields =>
    have hvalue := count_le_length_print value (indentation + 1)
    have hfields := countFields_le_length fields indentation
    rw [countFields, printFields, List.flatten_cons]
    simp only [List.length_append, List.length_cons]
    omega

end

theorem not_isDigit_of_isSpace {c : Char} (h : isSpace c = true) : c.isDigit = false := by
  simp only [isSpace, Bool.or_eq_true, beq_iff_eq] at h
  rcases h with ((rfl | rfl) | rfl) | rfl <;> decide

theorem ofText?_render (v : Json) {back : String} (hback : ∀ c ∈ back.toList, isSpace c = true)
    : ofText? (v.render ++ back) = some v := by
  have hstops : StopsDigits back.toList := by
    intro c hc
    exact not_isDigit_of_isSpace (hback c (List.mem_of_head? hc))
  have htext : (v.render ++ back).toList = [] ++ print 0 v ++ back.toList := by
    simp [render]
  have hcount : v.count ≤ (v.render ++ back).length := by
    rw [← String.length_toList, htext, List.nil_append, List.length_append]
    exact Nat.le_add_right_of_le (count_le_length_print v 0)
  have hread := isReadAs_print v _ 0 hcount [] back.toList (by simp) hstops
  have hend : dropSpaces back.toList = [] := List.dropWhile_eq_nil_iff.2 hback
  unfold ofText?
  rw [htext, hread]
  simp [hend]

end PatternLint.Report.Json
