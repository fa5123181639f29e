import Mathlib.Data.List.Sort
import PatternLint.Proofs.Except
import PatternLint.Proofs.Pattern.Grammar
import PatternLint.Proofs.Pattern.Search

/-!
This module contains the law of alternation: a bar between two patterns makes the pattern that finds
what either of them finds, and each node once. Neither the order of the two nor what both of them find
makes a difference, and two patterns without a kind in common have their results merged.
-/

namespace PatternLint

open Syntax (Node)

namespace NodePattern

/-! ### The text with a bar -/

def either (p q : NodePattern) : NodePattern :=
  ⟨p.source ++ "|" ++ q.source, p.terms ++ q.terms⟩

theorem Term.parse_of_blanks {piece : List Char} (h : ∀ c ∈ piece, Text.isBlank c = true)
    : Term.parse piece = .error .emptyTerm := by
  have htrim : Text.trim piece = [] := by
    unfold Text.trim
    rw [List.dropWhile_eq_nil_iff.2 h]
    rfl
  unfold Term.parse
  dsimp only
  rw [htrim]
  rfl

theorem parse_eq_ok_iff_mapM {source : String} {p : NodePattern}
    : parse source = .ok p
        ↔ p.source = source ∧ (Text.splitAt '|' source.toList).mapM Term.parse = .ok p.terms := by
  by_cases hblank : IsBlank source
  . have hbar : '|' ∉ source.toList := fun hmem => absurd (hblank _ hmem) (by decide)
    rw [parse_of_isBlank hblank, Text.splitAt_eq_singleton hbar, List.mapM_cons,
      Term.parse_of_blanks hblank]
    simp [bind, Except.bind]
  . unfold parse Text.isAllBlank
    rw [if_neg fun hall => hblank (List.all_eq_true.1 hall), bind_eq_ok_iff]
    constructor
    . rintro ⟨terms, hterms, hp⟩
      cases hp
      exact ⟨rfl, hterms⟩
    . rintro ⟨rfl, hterms⟩
      exact ⟨p.terms, hterms, rfl⟩

theorem parse_bar_eq_ok_iff {p q : String} {u : NodePattern}
    : parse (p ++ "|" ++ q) = .ok u
        ↔ ∃ a b, parse p = .ok a ∧ parse q = .ok b ∧ u = a.either b := by
  have hpieces : Text.splitAt '|' (p ++ "|" ++ q).toList
      = Text.splitAt '|' p.toList ++ Text.splitAt '|' q.toList := by
    rw [← Text.splitAt_append]
    simp
  rw [parse_eq_ok_iff_mapM, hpieces, List.mapM_append]
  constructor
  . rintro ⟨hsource, hterms⟩
    obtain ⟨first, hfirst, hterms⟩ := bind_eq_ok_iff.1 hterms
    obtain ⟨second, hsecond, hterms⟩ := bind_eq_ok_iff.1 hterms
    refine ⟨⟨p, first⟩, ⟨q, second⟩, parse_eq_ok_iff_mapM.2 ⟨rfl, hfirst⟩,
      parse_eq_ok_iff_mapM.2 ⟨rfl, hsecond⟩, ?_⟩
    injection hterms with hterms
    cases u
    cases hsource
    cases hterms
    rfl
  . rintro ⟨a, b, ha, hb, rfl⟩
    obtain ⟨rfl, ha⟩ := parse_eq_ok_iff_mapM.1 ha
    obtain ⟨rfl, hb⟩ := parse_eq_ok_iff_mapM.1 hb
    exact ⟨rfl, bind_eq_ok_iff.2 ⟨_, ha, bind_eq_ok_iff.2 ⟨_, hb, rfl⟩⟩⟩

/-! ### What it accepts -/

variable {p q : NodePattern}

theorem accepts_either_iff {node : Node}
    : (p.either q).Accepts node ↔ p.Accepts node ∨ q.Accepts node := by
  unfold Accepts either
  simp only [List.mem_append, or_and_right, exists_or]

theorem not_accepts_of_kinds_apart (h : ∀ kind, ¬ (p.wants kind = true ∧ q.wants kind = true))
    {node : Node} (hp : p.Accepts node) : ¬ q.Accepts node := by
  intro hq
  exact h node.kind ⟨hp.wants, hq.wants⟩

end NodePattern

/-! ### What it finds -/

namespace Location

theorem eq_of_le_of_le {l m : Location} (h : l.le m = true) (h' : m.le l = true) : l = m := by
  rw [le_iff] at h h'
  cases l
  cases m
  simp only [mk.injEq]
  dsimp only at h h'
  omega

theorem mergeSort_eq_of_perm {ls ms : List Location} (h : ls.Perm ms)
    : ls.mergeSort le = ms.mergeSort le := by
  apply List.Perm.eq_of_pairwise
  . intro l m _ _ hle hle'
    exact eq_of_le_of_le hle hle'
  . exact List.pairwise_mergeSort le_trans le_total ls
  . exact List.pairwise_mergeSort le_trans le_total ms
  . exact ((List.mergeSort_perm ls le).trans h).trans (List.mergeSort_perm ms le).symm

theorem merge_mergeSort (ls ms : List Location)
    : (ls.mergeSort le).merge (ms.mergeSort le) le = (ls ++ ms).mergeSort le := by
  apply List.Perm.eq_of_pairwise
  . intro l m _ _ hle hle'
    exact eq_of_le_of_le hle hle'
  . exact List.pairwise_merge le_trans le_total _ _ (List.pairwise_mergeSort le_trans le_total ls)
      (List.pairwise_mergeSort le_trans le_total ms)
  . exact List.pairwise_mergeSort le_trans le_total _
  . refine (List.merge_perm_append le).trans ?_
    exact ((List.mergeSort_perm ls le).append (List.mergeSort_perm ms le)).trans
      (List.mergeSort_perm _ le).symm

end Location

namespace Position

def le (p q : Position) : Bool :=
  (p.compare q).isLE

theorem le_of_locations (path : Path) (l m : Location)
    : le ⟨path, l.line, l.column⟩ ⟨path, m.line, m.column⟩ = l.le m := by
  have hfile : Ord.compare path.components path.components = .eq := Std.ReflCmp.compare_self
  unfold le compare Location.le
  dsimp only
  rw [hfile, Ordering.eq_then, Bool.eq_iff_iff, Ordering.isLE_then_iff_or, Nat.compare_eq_lt,
    Nat.compare_eq_eq, Nat.isLE_compare]
  simp

end Position

namespace NodePattern

variable {p q : NodePattern} {n : Nat}

theorem perm_found (h : ∀ node, p.Accepts node ↔ q.Accepts node) (t : Syntax.Tree n)
    : (t.found p).Perm (t.found q) := by
  apply (Syntax.Tree.reports_found p t).perm_of_iff (Syntax.Tree.reports_found q t)
  intro address node
  rw [h node]

theorem perm_found_either (h : ∀ node, p.Accepts node → ¬ q.Accepts node) (t : Syntax.Tree n)
    : (t.found (p.either q)).Perm (t.found p ++ t.found q) := by
  have heither := Syntax.Tree.reports_found (p.either q) t
  have happend := (Syntax.Tree.reports_found p t).append (Syntax.Tree.reports_found q t) ?_
  . apply heither.perm_of_iff happend
    intro address node
    rw [accepts_either_iff, and_or_left]
  . rintro address node other ⟨hnode, hp⟩ ⟨hother, hq⟩
    -- one address has one node, which would be accepted by both
    have hsame := heither.eq_of_index ⟨hnode, accepts_either_iff.2 (.inl hp)⟩
      ⟨hother, accepts_either_iff.2 (.inr hq)⟩
    rw [← hsame] at hq
    exact h node hp hq

end NodePattern

namespace ParsedFile

variable {p q : NodePattern} (file : ParsedFile)

theorem find_congr (h : ∀ node, p.Accepts node ↔ q.Accepts node) : file.find p = file.find q := by
  unfold find NodePattern.find
  rw [Location.mergeSort_eq_of_perm (NodePattern.perm_found h file.tree.tree)]

theorem find_either (h : ∀ node, p.Accepts node → ¬ q.Accepts node)
    : file.find (p.either q) = (file.find p).merge (file.find q) Position.le := by
  unfold find NodePattern.find
  rw [Location.mergeSort_eq_of_perm (NodePattern.perm_found_either h file.tree.tree),
    ← Location.merge_mergeSort]
  apply List.map_merge
  intro l _ m _
  exact (Position.le_of_locations file.path l m).symm

theorem lists_find_either
    : ListsOnce
        (fun address node => file.tree.tree.HasNode address node ∧ (p.Accepts node ∨ q.Accepts node))
        (fun node => ⟨file.path, node.location.line, node.location.column⟩)
        (file.find (p.either q)) := by
  apply (file.lists_find (p.either q)).congr
  intro address node
  rw [NodePattern.accepts_either_iff]

theorem mem_find_either_iff {position : Position}
    : position ∈ file.find (p.either q) ↔ position ∈ file.find p ∨ position ∈ file.find q := by
  rw [file.lists_find_either.mem_iff, (file.lists_find p).mem_iff, (file.lists_find q).mem_iff]
  simp only [and_or_left, or_and_right, exists_or]

end ParsedFile

/--
The law of alternation. A bar between two texts makes a pattern exactly if both texts are patterns. What
it finds in a file is each node that one of them accepts, once, in the order of the text. The order of
the two texts does not count, a pattern next to itself finds what it finds alone, and what two patterns
without a kind in common find is merged.
-/
theorem NodePattern.alternation_is_union (p q : String)
    : ((∃ u, parse (p ++ "|" ++ q) = .ok u) ↔ (∃ a, parse p = .ok a) ∧ ∃ b, parse q = .ok b)
        ∧ ∀ a b, parse p = .ok a → parse q = .ok b →
          ∃ both swapped twice, parse (p ++ "|" ++ q) = .ok both ∧ parse (q ++ "|" ++ p) = .ok swapped
            ∧ parse (p ++ "|" ++ p) = .ok twice
            ∧ ∀ file : ParsedFile,
              ListsOnce
                (fun address node =>
                  file.tree.tree.HasNode address node ∧ (a.Accepts node ∨ b.Accepts node))
                (fun node => ⟨file.path, node.location.line, node.location.column⟩) (file.find both)
              ∧ ((file.find both).Pairwise fun first second =>
                first.line < second.line ∨ first.line = second.line ∧ first.column ≤ second.column)
              ∧ (∀ position, position ∈ file.find both
                ↔ position ∈ file.find a ∨ position ∈ file.find b)
              ∧ file.find swapped = file.find both
              ∧ file.find twice = file.find a
              ∧ ((∀ kind, ¬ (a.wants kind = true ∧ b.wants kind = true)) →
                file.find both = (file.find a).merge (file.find b) Position.le) := by
  constructor
  . simp only [parse_bar_eq_ok_iff]
    constructor
    . rintro ⟨u, a, b, ha, hb, -⟩
      exact ⟨⟨a, ha⟩, b, hb⟩
    . rintro ⟨⟨a, ha⟩, b, hb⟩
      exact ⟨_, a, b, ha, hb, rfl⟩
  . intro a b ha hb
    refine ⟨a.either b, b.either a, a.either a, parse_bar_eq_ok_iff.2 ⟨a, b, ha, hb, rfl⟩,
      parse_bar_eq_ok_iff.2 ⟨b, a, hb, ha, rfl⟩, parse_bar_eq_ok_iff.2 ⟨a, a, ha, ha, rfl⟩, ?_⟩
    intro file
    refine ⟨file.lists_find_either, file.pairwise_find _, fun _ => file.mem_find_either_iff, ?_, ?_, ?_⟩
    . apply file.find_congr
      intro node
      rw [accepts_either_iff, accepts_either_iff, or_comm]
    . apply file.find_congr
      intro node
      rw [accepts_either_iff, or_self]
    . intro hkinds
      exact file.find_either fun node => not_accepts_of_kinds_apart hkinds

section Sample

def alternationFile : ParsedFile where
  path := ⟨"/p/a.rs"⟩
  tree :=
    { bound := 0
      tree := .ofChildren [.node (.function ⟨"run", ⟨1, 1⟩⟩) [], .node (.struct ⟨"S", ⟨2, 1⟩⟩) [],
        .node (.function ⟨"rest", ⟨3, 1⟩⟩) []] }

def functionsPattern : NodePattern :=
  ⟨"fn(r*)", [⟨.function, .name ⟨[.char 'r', .anySequence]⟩⟩]⟩

def structsPattern : NodePattern :=
  ⟨"struct", [⟨.struct, .any⟩]⟩

theorem find_functionsPattern
    : alternationFile.find functionsPattern = [⟨⟨"/p/a.rs"⟩, 1, 1⟩, ⟨⟨"/p/a.rs"⟩, 3, 1⟩] := by
  have hfound : alternationFile.tree.tree.found functionsPattern = [⟨1, 1⟩, ⟨3, 1⟩] := by
    decide +kernel
  unfold ParsedFile.find NodePattern.find
  rw [hfound, List.mergeSort_of_pairwise (by decide)]
  rfl

theorem find_structsPattern
    : alternationFile.find structsPattern = [⟨⟨"/p/a.rs"⟩, 2, 1⟩] := by
  decide +kernel

theorem NodePattern.alternation_is_union_sample
    : parse "fn(r*)" = .ok functionsPattern ∧ parse "struct" = .ok structsPattern
        ∧ (∀ kind, ¬ (functionsPattern.wants kind = true ∧ structsPattern.wants kind = true))
        ∧ ∃ both swapped, parse "fn(r*)|struct" = .ok both ∧ parse "struct|fn(r*)" = .ok swapped
          ∧ alternationFile.find both
            = [⟨⟨"/p/a.rs"⟩, 1, 1⟩, ⟨⟨"/p/a.rs"⟩, 2, 1⟩, ⟨⟨"/p/a.rs"⟩, 3, 1⟩]
          ∧ alternationFile.find swapped = alternationFile.find both := by
  have hfunctions : parse "fn(r*)" = .ok functionsPattern := by
    decide +kernel
  have hstructs : parse "struct" = .ok structsPattern := by
    decide +kernel
  have hkinds (kind : NodeKind)
      : ¬ (functionsPattern.wants kind = true ∧ structsPattern.wants kind = true) := by
    cases kind <;> decide
  obtain ⟨_, hlaw⟩ := alternation_is_union "fn(r*)" "struct"
  obtain ⟨both, swapped, _, hboth, hswapped, _, hfile⟩ := hlaw _ _ hfunctions hstructs
  obtain ⟨_, _, _, hsame, _, hmerged⟩ := hfile alternationFile
  refine ⟨hfunctions, hstructs, hkinds, both, swapped, hboth, hswapped, ?_, hsame⟩
  rw [hmerged hkinds, find_functionsPattern, find_structsPattern,
    List.cons_merge_cons_pos _ _ _ (by decide), List.cons_merge_cons_neg _ _ _ (by decide),
    List.merge_right]

end Sample

end PatternLint
