import PatternLint.Pattern.PathPattern
import PatternLint.Proofs.Text.Colons

/-!
This module contains the law of path patterns: which texts are patterns, and which paths a pattern
accepts. A pattern describes a regular language over names, in which `**` stands for any names, `*` for
one name, and all else for itself.
-/

namespace PatternLint

namespace PathPattern

open Text (Trims Unseparates IsCutAtColons IsPadded)

/-! ### What patterns mean -/

def HasPieces (text : List Char) (pieces : List (List Char)) : Prop :=
  ∃ trimmed body, Trims text trimmed ∧ Unseparates trimmed body ∧ IsCutAtColons body pieces

inductive Segment.IsRead (piece : List Char) : Segment → Prop where
  | anyNames (htext : Trims piece ['*', '*']) : IsRead piece .anyNames
  | anyName (htext : Trims piece ['*']) : IsRead piece .anyName
  | name {text : List Char} (htext : Trims piece text) (hne : text ≠ []) (hany : text ≠ ['*'])
      (hmany : text ≠ ['*', '*']) : IsRead piece (.name text)

/-- The lists of names that a segment stands for. -/
inductive Segment.StandsFor : Segment → List (List Char) → Prop where
  | anyNames (names : List (List Char)) : StandsFor .anyNames names
  | anyName (name : List Char) : StandsFor .anyName [name]
  | name (text : List Char) : StandsFor (.name text) [text]

def Describes (segments : List Segment) (names : List (List Char)) : Prop :=
  ∃ parts : List (List (List Char)), parts.flatten = names ∧ List.Forall₂ Segment.StandsFor segments parts

section Describes

variable {segments : List Segment} {names : List (List Char)}

theorem describes_nil_iff : Describes [] names ↔ names = [] := by
  simp [Describes, eq_comm]

theorem describes_cons_iff {s : Segment}
    : Describes (s :: segments) names
        ↔
      ∃ part rest, names = part ++ rest ∧ s.StandsFor part ∧ Describes segments rest := by
  constructor
  . rintro ⟨_, rfl, h⟩
    obtain ⟨part, parts, hpart, hparts, rfl⟩ := List.forall₂_cons_left_iff.1 h
    exact ⟨part, parts.flatten, rfl, hpart, parts, rfl, hparts⟩
  . rintro ⟨part, _, rfl, hpart, parts, rfl, hparts⟩
    exact ⟨part :: parts, rfl, .cons hpart hparts⟩

theorem describes_append_iff {others : List Segment}
    : Describes (segments ++ others) names
        ↔
      ∃ front rest, names = front ++ rest ∧ Describes segments front ∧ Describes others rest := by
  induction segments generalizing names with
  | nil => simp [describes_nil_iff]
  | cons s segments ih =>
    simp only [List.cons_append, describes_cons_iff, ih]
    constructor
    . rintro ⟨part, _, rfl, hpart, front, rest, rfl, hfront, hrest⟩
      exact ⟨part ++ front, rest, by simp, ⟨part, front, rfl, hpart, hfront⟩, hrest⟩
    . rintro ⟨_, rest, rfl, ⟨part, front, rfl, hpart, hfront⟩, hrest⟩
      exact ⟨part, front ++ rest, by simp, hpart, front, rest, rfl, hfront, hrest⟩

theorem describes_anyNames_iff
    : Describes (.anyNames :: segments) names ↔ ∃ rest, rest <:+ names ∧ Describes segments rest := by
  rw [describes_cons_iff]
  constructor
  . rintro ⟨part, rest, rfl, _, hrest⟩
    exact ⟨rest, List.suffix_append _ _, hrest⟩
  . rintro ⟨rest, ⟨part, rfl⟩, hrest⟩
    exact ⟨part, rest, rfl, .anyNames part, hrest⟩

theorem describes_anyName_iff
    : Describes (.anyName :: segments) names ↔ ∃ name rest, names = name :: rest ∧ Describes segments rest := by
  rw [describes_cons_iff]
  constructor
  . rintro ⟨_, rest, rfl, ⟨⟩, hrest⟩
    exact ⟨_, rest, rfl, hrest⟩
  . rintro ⟨name, rest, rfl, hrest⟩
    exact ⟨[name], rest, rfl, .anyName name, hrest⟩

theorem describes_name_iff {text : List Char}
    : Describes (.name text :: segments) names ↔ ∃ rest, names = text :: rest ∧ Describes segments rest := by
  rw [describes_cons_iff]
  constructor
  . rintro ⟨_, rest, rfl, ⟨⟩, hrest⟩
    exact ⟨rest, rfl, hrest⟩
  . rintro ⟨rest, rfl, hrest⟩
    exact ⟨[text], rest, rfl, .name text, hrest⟩

end Describes

theorem mem_suffixes_iff {α : Type} {as bs : List α} : as ∈ Text.suffixes bs ↔ as <:+ bs := by
  induction bs with
  | nil => simp [Text.suffixes]
  | cons b bs ih => rw [Text.suffixes, List.mem_cons, List.suffix_cons_iff, ih]

theorem matchSegments_eq_true_iff (segments : List Segment) (names : List (List Char))
    : matchSegments segments names = true ↔ Describes segments names := by
  induction segments generalizing names with
  | nil => rw [describes_nil_iff, matchSegments, List.isEmpty_iff]
  | cons s segments ih =>
    cases s with
    | anyNames =>
      rw [matchSegments, List.any_eq_true, describes_anyNames_iff]
      simp only [mem_suffixes_iff, ih]
    | anyName =>
      rw [describes_anyName_iff]
      cases names with
      | nil => simp [matchSegments]
      | cons name names => simp [matchSegments, ih]
    | name text =>
      rw [describes_name_iff]
      cases names with
      | nil => simp [matchSegments]
      | cons name names => simp [matchSegments, ih, and_assoc]

theorem accepts_eq_true_iff {p : PathPattern} {subject : String} {names : List (List Char)}
    (hnames : IsCutAtColons subject.toList names)
    : p.accepts subject = true ↔ Describes p.segments names := by
  rw [accepts, ← Text.isCutAtColons_iff.1 hnames, matchSegments_eq_true_iff]

/-! ### Patterns with the same meaning -/

section Equivalence

variable {segments others : List Segment} {names : List (List Char)}

theorem describes_within (h : ∀ names, Describes segments names ↔ Describes others names)
    (front back : List Segment)
    : Describes (front ++ segments ++ back) names ↔ Describes (front ++ others ++ back) names := by
  simp only [describes_append_iff, h]

theorem describes_anyNames_anyNames
    : Describes [.anyNames, .anyNames] names ↔ Describes [.anyNames] names := by
  simp only [describes_anyNames_iff]
  constructor
  . rintro ⟨_, _, rest, hrest, hnil⟩
    exact ⟨rest, hrest.trans ‹_›, hnil⟩
  . rintro ⟨rest, hrest, hnil⟩
    exact ⟨names, List.suffix_refl _, rest, hrest, hnil⟩

theorem describes_anyNames_anyName
    : Describes [.anyNames, .anyName] names ↔ Describes [.anyName, .anyNames] names := by
  have hfirst : Describes [.anyNames, .anyName] names ↔ names ≠ [] := by
    simp only [describes_anyNames_iff, describes_anyName_iff, describes_nil_iff]
    constructor
    . rintro ⟨_, hsuffix, name, _, rfl, rfl⟩ rfl
      rw [List.suffix_nil] at hsuffix
      contradiction
    . intro hne
      obtain ⟨before, last, rfl⟩ := (List.eq_nil_or_concat' names).resolve_left hne
      exact ⟨[last], List.suffix_append _ _, last, [], rfl, rfl⟩
  have hlast : Describes [.anyName, .anyNames] names ↔ names ≠ [] := by
    simp only [describes_anyNames_iff, describes_anyName_iff, describes_nil_iff]
    constructor
    . rintro ⟨name, rest, rfl, _⟩
      exact List.cons_ne_nil _ _
    . intro hne
      obtain ⟨name, rest, rfl⟩ := List.exists_cons_of_ne_nil hne
      exact ⟨name, rest, rfl, [], List.nil_suffix, rfl⟩
  rw [hfirst, hlast]

theorem accepts_within (h : ∀ names, Describes segments names ↔ Describes others names)
    (front back : List Segment) (subject : String)
    : accepts ⟨front ++ segments ++ back⟩ subject = accepts ⟨front ++ others ++ back⟩ subject := by
  have hnames := Text.isCutAtColons_splitAtColons subject.toList
  rw [Bool.eq_iff_iff, accepts_eq_true_iff hnames, accepts_eq_true_iff hnames]
  exact describes_within h front back

end Equivalence

/-! ### What is read -/

theorem hasPieces_iff {text : List Char} {pieces : List (List Char)}
    : HasPieces text pieces ↔ pieces = Text.splitAtColons (body text) := by
  constructor
  . rintro ⟨trimmed, body, htrims, hbody, hcut⟩
    rw [Text.isCutAtColons_iff.1 hcut, ← hbody.eq_dropColons, htrims.eq_trim]
    rfl
  . rintro rfl
    exact ⟨_, _, Text.trims_trim text, Text.unseparates_dropColons _, Text.isCutAtColons_splitAtColons _⟩

theorem Segment.isRead_iff {piece : List Char} {s : Segment}
    : s.IsRead piece ↔ Text.trim piece ≠ [] ∧ s = Segment.ofChars (Text.trim piece) := by
  constructor
  . intro h
    cases h with
    | anyNames htext =>
      rw [← htext.eq_trim]
      exact ⟨by simp, rfl⟩
    | anyName htext =>
      rw [← htext.eq_trim]
      exact ⟨by simp, rfl⟩
    | name htext hne hany hmany =>
      rw [← htext.eq_trim]
      refine ⟨hne, ?_⟩
      unfold Segment.ofChars
      split
      . contradiction
      . contradiction
      . rfl
  . rintro ⟨hne, rfl⟩
    have htext := Text.trims_trim piece
    generalize Text.trim piece = text at hne htext ⊢
    unfold Segment.ofChars
    split
    . exact .anyNames htext
    . exact .anyName htext
    . next hmany hany => exact .name htext hne hany hmany

theorem parse_eq_ok_iff_parts {text : String} {p : PathPattern}
    : parse text = .ok p
        ↔
      [] ∉ parts text.toList ∧ p.segments = (parts text.toList).map Segment.ofChars := by
  have hempty : (parts text.toList).any List.isEmpty = true ↔ [] ∈ parts text.toList := by
    simp
  unfold parse
  dsimp only
  simp only [hempty]
  split
  . next hmem => simp [hmem]
  . next hmem =>
    cases p
    simp [hmem, eq_comm]

section Parse

variable {text : String} {pieces : List (List Char)}

theorem parts_of_hasPieces (h : HasPieces text.toList pieces)
    : parts text.toList = pieces.map Text.trim := by
  rw [hasPieces_iff.1 h]
  rfl

theorem parse_eq_ok_iff (h : HasPieces text.toList pieces) (p : PathPattern)
    : parse text = .ok p ↔ List.Forall₂ (fun piece s => s.IsRead piece) pieces p.segments := by
  rw [parse_eq_ok_iff_parts, parts_of_hasPieces h, List.map_map]
  simp only [Segment.isRead_iff]
  constructor
  . rintro ⟨hmem, hsegments⟩
    rw [hsegments, List.forall₂_map_right_iff, List.forall₂_same]
    intro piece hpiece
    refine ⟨?_, rfl⟩
    intro hnil
    exact hmem (List.mem_map.2 ⟨piece, hpiece, hnil⟩)
  . intro hall
    generalize p.segments = segments at hall ⊢
    clear h
    induction hall with
    | nil => simp
    | cons hread _ ih =>
      obtain ⟨hne, rfl⟩ := hread
      obtain ⟨hmem, hsegments⟩ := ih
      rw [hsegments, List.map_cons, List.mem_cons, not_or]
      exact ⟨⟨Ne.symm hne, hmem⟩, rfl⟩

theorem exists_parse_iff (h : HasPieces text.toList pieces)
    : (∃ p, parse text = .ok p) ↔ ∀ piece ∈ pieces, ∃ c ∈ piece, Text.isBlank c = false := by
  have hblank (piece : List Char) : Text.trim piece ≠ [] ↔ ∃ c ∈ piece, Text.isBlank c = false := by
    simp [Text.trim_eq_nil_iff]
  simp only [parse_eq_ok_iff_parts, parts_of_hasPieces h, ← hblank]
  constructor
  . rintro ⟨p, hmem, _⟩ piece hpiece hnil
    exact hmem (List.mem_map.2 ⟨piece, hpiece, hnil⟩)
  . intro hall
    refine ⟨⟨_⟩, ?_, rfl⟩
    rw [List.mem_map]
    rintro ⟨piece, hpiece, hnil⟩
    exact hall piece hpiece hnil

theorem parts_eq (text : List Char)
    : parts text
        =
      (Text.dropEmpty ((Text.splitAtColons text).modifyHead (·.dropWhile Text.isBlank))).map Text.trim := by
  obtain ⟨back, hback, hblank⟩ := Text.exists_dropWhile_eq_trim_append text
  rw [← Text.splitAtColons_dropWhile, hback, Text.splitAtColons_append_blanks hblank,
    Text.map_trim_dropEmpty_appendToLast hblank, ← Text.splitAtColons_dropColons]
  rfl

theorem parse_congr {other : String} (h : parts other.toList = parts text.toList) (p : PathPattern)
    : parse other = .ok p ↔ parse text = .ok p := by
  rw [parse_eq_ok_iff_parts, parse_eq_ok_iff_parts, h]

theorem parts_colons {text : List Char} (h : ∀ c, text.head? = some c → Text.isBlank c = false)
    : parts (':' :: ':' :: text) = parts text := by
  have hfront : text.dropWhile Text.isBlank = text := by
    cases text with
    | nil => rfl
    | cons c text => exact List.dropWhile_cons_of_neg (by simp [h c rfl])
  rw [parts_eq, parts_eq, ← Text.splitAtColons_dropWhile, ← Text.splitAtColons_dropWhile, hfront,
    List.dropWhile_cons_of_neg (by decide), Text.splitAtColons, if_pos ⟨rfl, rfl⟩,
    Text.dropEmpty_cons (Text.splitAtColons_ne_nil text)]

theorem parts_padded {text : List Char} {padded : List (List Char)} (hcut : IsCutAtColons text pieces)
    (h : List.Forall₂ IsPadded pieces padded)
    : parts ([':', ':'].intercalate padded) = parts text := by
  rw [parts_eq, parts_eq, ← Text.isCutAtColons_iff.1 hcut, ← Text.isCutAtColons_iff.1 (hcut.pad h),
    Text.map_trim_dropEmpty_padded h]

/--
The law of path patterns. A text is a pattern exactly if no piece of it is blank, and each piece is a
segment of the pattern. A pattern accepts the paths whose names it describes. Neither `**` next to itself,
nor its place next to `*`, nor separators in front of a text, nor blanks around pieces make a difference.
-/
theorem means_regular_language (text : String)
    : (∃ pieces, HasPieces text.toList pieces)
        ∧ (∀ pieces, HasPieces text.toList pieces →
          ((∃ p, parse text = .ok p) ↔ ∀ piece ∈ pieces, ∃ c ∈ piece, Text.isBlank c = false)
          ∧ ∀ p, parse text = .ok p ↔ List.Forall₂ (fun piece s => s.IsRead piece) pieces p.segments)
        ∧ (∀ p : PathPattern, ∀ subject names, IsCutAtColons subject.toList names →
          (p.accepts subject = true ↔ Describes p.segments names))
        ∧ (∀ front back subject,
          accepts ⟨front ++ [.anyNames, .anyNames] ++ back⟩ subject
            = accepts ⟨front ++ [.anyNames] ++ back⟩ subject
          ∧ accepts ⟨front ++ [.anyNames, .anyName] ++ back⟩ subject
            = accepts ⟨front ++ [.anyName, .anyNames] ++ back⟩ subject)
        ∧ ((∀ c, text.toList.head? = some c → Text.isBlank c = false) →
          ∀ p, parse ("::" ++ text) = .ok p ↔ parse text = .ok p)
        ∧ ∀ pieces padded, IsCutAtColons text.toList pieces → List.Forall₂ IsPadded pieces padded →
          ∀ p, parse (String.ofList ([':', ':'].intercalate padded)) = .ok p ↔ parse text = .ok p := by
  refine ⟨⟨_, hasPieces_iff.2 rfl⟩, ?_, ?_, ?_, ?_, ?_⟩
  . intro pieces hpieces
    exact ⟨exists_parse_iff hpieces, parse_eq_ok_iff hpieces⟩
  . intro p subject names hnames
    exact accepts_eq_true_iff hnames
  . intro front back subject
    constructor
    . apply accepts_within
      exact fun _ => describes_anyNames_anyNames
    . apply accepts_within
      exact fun _ => describes_anyNames_anyName
  . intro hfront
    apply parse_congr
    rw [String.toList_append]
    exact parts_colons hfront
  . intro pieces padded hcut hpadded
    apply parse_congr
    rw [String.toList_ofList]
    exact parts_padded hcut hpadded

end Parse

theorem means_regular_language_sample
    : HasPieces "std:: **".toList ["std".toList, " **".toList]
        ∧ IsCutAtColons "std:: **".toList ["std".toList, " **".toList]
        ∧ List.Forall₂ IsPadded ["std".toList, " **".toList] ["\tstd ".toList, " ** ".toList]
        ∧ IsCutAtColons "std::fs::read".toList ["std".toList, "fs".toList, "read".toList]
        ∧ List.Forall₂ (fun piece s => Segment.IsRead piece s) ["std".toList, " **".toList]
          [.name "std".toList, .anyNames]
        ∧ accepts ⟨[.name "std".toList, .anyNames]⟩ "std::fs::read" = true
        ∧ parse "::std:: **" = .ok ⟨[.name "std".toList, .anyNames]⟩
        ∧ parse "\tstd :: ** " = .ok ⟨[.name "std".toList, .anyNames]⟩ := by
  have hpieces : HasPieces "std:: **".toList ["std".toList, " **".toList] :=
    hasPieces_iff.2 (by decide)
  have hcut : IsCutAtColons "std:: **".toList ["std".toList, " **".toList] :=
    Text.isCutAtColons_iff.2 (by decide)
  have hspace : ∀ c ∈ [' '], Text.isBlank c = true := List.forall_mem_singleton.2 rfl
  have htab : ∀ c ∈ ['\t'], Text.isBlank c = true := List.forall_mem_singleton.2 rfl
  have hpadded : List.Forall₂ IsPadded ["std".toList, " **".toList] ["\tstd ".toList, " ** ".toList] :=
    .cons (@IsPadded.blanks ['\t'] "std".toList [' '] (by decide) htab hspace)
      (.cons (@IsPadded.blanks [] " **".toList [' '] (by decide) (List.forall_mem_nil _) hspace) .nil)
  have hnames : IsCutAtColons "std::fs::read".toList ["std".toList, "fs".toList, "read".toList] :=
    Text.isCutAtColons_iff.2 (by decide)
  have hfront : ∀ c, "std:: **".toList.head? = some c → Text.isBlank c = false := by
    intro c hc
    obtain rfl : 's' = c := Option.some.inj hc
    rfl
  have hp : parse "std:: **" = .ok ⟨[.name "std".toList, .anyNames]⟩ := by
    decide
  have hdescribes : Describes [.name "std".toList, .anyNames] ["std".toList, "fs".toList, "read".toList] :=
    ⟨[["std".toList], ["fs".toList, "read".toList]], rfl, .cons (.name _) (.cons (.anyNames _) .nil)⟩
  obtain ⟨_, hread, haccepts, _, hcolons, hblanks⟩ := means_regular_language "std:: **"
  exact ⟨hpieces, hcut, hpadded, hnames, ((hread _ hpieces).2 _).1 hp, (haccepts _ _ _ hnames).2 hdescribes,
    (hcolons hfront _).2 hp, (hblanks _ _ hcut hpadded _).2 hp⟩

end PathPattern

end PatternLint
