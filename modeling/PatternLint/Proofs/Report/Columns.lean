import Mathlib.Data.List.Forall2
import PatternLint.Report.Render

/-!
This module contains the law of the columns of a report: all messages start in the same column, which is as
far to the left as the longest position allows.
-/

namespace PatternLint

namespace Report

/-- What stands in a line of a text report: a position, what fills the line after its colon, and a message. -/
structure Record where
  position : String
  padding : List Char
  message : String

namespace Record

def line (before after : String) (r : Record) : String :=
  before ++ r.position ++ after ++ ":" ++ String.ofList r.padding ++ r.message ++ "\n"

structure IsOf (root : Path) (d : Diagnostic) (r : Record) : Prop where
  position_some : ∀ p, d.position = some p → r.position = p.relativeTo root
  position_none : d.position = none → r.position = "-"
  message_eq : r.message = d.message

end Record

/-- The messages of records start in one column, which is no further to the right than it has to be. -/
structure AreAligned (width : Nat) (records : List Record) : Prop where
  spaces : ∀ r ∈ records, ∀ c ∈ r.padding, c = ' '
  width_eq : ∀ r ∈ records, r.position.length + r.padding.length = width
  apart : ∀ r ∈ records, 1 ≤ r.padding.length
  tight : ∀ r ∈ records, (∀ other ∈ records, other.position.length ≤ r.position.length) →
    r.padding.length = 1

section Width

variable {positions : List String}

theorem messageColumn_eq_max (hne : positions.map String.length ≠ [])
    : messageColumn positions = (positions.map String.length).max hne + 1 := by
  unfold messageColumn
  rw [List.foldl_max, List.max?_eq_some_max hne]
  simp

theorem length_lt_messageColumn {position : String} (h : position ∈ positions)
    : position.length < messageColumn positions := by
  have hlength : position.length ∈ positions.map String.length := List.mem_map_of_mem h
  rw [messageColumn_eq_max (List.ne_nil_of_mem hlength)]
  exact Nat.lt_succ_of_le (List.le_max_of_mem hlength)

theorem messageColumn_eq_of_longest {position : String} (h : position ∈ positions)
    (hlongest : ∀ other ∈ positions, other.length ≤ position.length)
    : messageColumn positions = position.length + 1 := by
  have hlength : position.length ∈ positions.map String.length := List.mem_map_of_mem h
  have hne := List.ne_nil_of_mem hlength
  rw [messageColumn_eq_max hne, Nat.add_right_cancel_iff]
  apply Nat.le_antisymm
  . rw [List.max_le_iff hne]
    exact List.forall_mem_map.2 hlongest
  . exact List.le_max_of_mem hlength

end Width

section Records

def recordOf (root : Path) (width : Nat) (d : Diagnostic) : Record where
  position := positionText root d
  padding := List.replicate (width - (positionText root d).length) ' '
  message := d.message

theorem recordOf_isOf (root : Path) (width : Nat) (d : Diagnostic) : (recordOf root width d).IsOf root d := by
  refine ⟨?_, ?_, rfl⟩
  . intro p hp
    unfold recordOf positionText
    rw [hp]
  . intro hnone
    unfold recordOf positionText
    rw [hnone]
    rfl

theorem textLine_false (root : Path) (width : Nat) (d : Diagnostic)
    : textLine false width (positionText root d) d.message = (recordOf root width d).line "" "" := by
  unfold textLine Record.line recordOf
  simp

theorem textLine_true (root : Path) (width : Nat) (d : Diagnostic)
    : textLine true width (positionText root d) d.message
        =
      (recordOf root width d).line "\x1b[32m" "\x1b[0m" := by
  unfold textLine paint Record.line recordOf
  simp

theorem length_padding (root : Path) (width : Nat) (d : Diagnostic)
    : (recordOf root width d).padding.length = width - (positionText root d).length := by
  apply List.length_replicate

theorem renderText_eq_records (root : Path) (ds : List Diagnostic) {color : Bool} {before after : String}
    (hline : ∀ width d, textLine color width (positionText root d) d.message
      = (recordOf root width d).line before after)
    : renderText root color ds
        =
      String.join ((ds.map (recordOf root (messageColumn (ds.map (positionText root))))).map
        (Record.line before after)) := by
  unfold renderText
  dsimp only
  rw [List.map_map]
  congr 1
  apply List.map_congr_left
  intro d _
  apply hline

theorem render_eq_records (root : Path) {ds : List Diagnostic} (hne : ds ≠ [])
    : render root .text false ds
          = String.join ((ds.map (recordOf root (messageColumn (ds.map (positionText root))))).map
            (Record.line "" ""))
        ∧ render root .text true ds
          = String.join ((ds.map (recordOf root (messageColumn (ds.map (positionText root))))).map
            (Record.line "\x1b[32m" "\x1b[0m")) := by
  have hrender (color : Bool) : render root .text color ds = renderText root color ds := by
    unfold render
    rw [if_neg (by simpa using hne)]
  rw [hrender, hrender]
  constructor
  . exact renderText_eq_records root ds (textLine_false root)
  . exact renderText_eq_records root ds (textLine_true root)

theorem areAligned_records (root : Path) (ds : List Diagnostic)
    : AreAligned (messageColumn (ds.map (positionText root)))
        (ds.map (recordOf root (messageColumn (ds.map (positionText root))))) := by
  have hlt (d : Diagnostic) (hd : d ∈ ds)
      : (positionText root d).length < messageColumn (ds.map (positionText root)) :=
    length_lt_messageColumn (List.mem_map_of_mem hd)
  have hlongest (d : Diagnostic) (hd : d ∈ ds)
      (h : ∀ other ∈ ds, (positionText root other).length ≤ (positionText root d).length)
      : messageColumn (ds.map (positionText root)) = (positionText root d).length + 1 :=
    messageColumn_eq_of_longest (List.mem_map_of_mem hd) (List.forall_mem_map.2 h)
  generalize messageColumn (ds.map (positionText root)) = width at hlt hlongest ⊢
  refine ⟨List.forall_mem_map.2 ?_, List.forall_mem_map.2 ?_, List.forall_mem_map.2 ?_,
    List.forall_mem_map.2 ?_⟩
  . intro d _ c hc
    exact List.eq_of_mem_replicate hc
  . intro d hd
    rw [length_padding]
    exact Nat.add_sub_cancel' (Nat.le_of_lt (hlt d hd))
  . intro d hd
    rw [length_padding]
    exact Nat.sub_pos_of_lt (hlt d hd)
  . intro d hd h
    rw [length_padding, hlongest d hd (List.forall_mem_map.1 h), Nat.add_sub_cancel_left]

end Records

theorem exists_longest {positions : List String} (hne : positions ≠ [])
    : ∃ position ∈ positions, ∀ other ∈ positions, other.length ≤ position.length := by
  have hne : positions.map String.length ≠ [] := by
    rwa [Ne, List.map_eq_nil_iff]
  obtain ⟨position, hposition, hmax⟩ := List.mem_map.1 (List.max_mem hne)
  refine ⟨position, hposition, fun other hother => ?_⟩
  rw [hmax]
  exact List.le_max_of_mem (List.mem_map_of_mem hother)

/--
The lines of a text report are aligned: behind its colon, each position is filled up with spaces to the same
width, at least with one and the longest with no more than that. Colored, a report has the same lines with
the marks for the color around the positions.
-/
theorem render_aligned (root : Path) {ds : List Diagnostic} (hne : ds ≠ [])
    : ∃ width records, List.Forall₂ (Record.IsOf root) ds records
        ∧ AreAligned width records
        ∧ (∃ r ∈ records, r.padding.length = 1)
        ∧ (∀ d ∈ ds, (positionText root d).length < messageColumn (ds.map (positionText root)))
        ∧ render root .text false ds = String.join (records.map (Record.line "" ""))
        ∧ render root .text true ds = String.join (records.map (Record.line "\x1b[32m" "\x1b[0m")) := by
  have haligned := areAligned_records root ds
  refine ⟨_, _, ?_, haligned, ?_, ?_, render_eq_records root hne⟩
  . rw [List.forall₂_map_right_iff, List.forall₂_same]
    intro d _
    apply recordOf_isOf
  . -- the record of a longest position
    have hpositions : ds.map (positionText root) ≠ [] := by
      simpa using hne
    obtain ⟨_, hposition, hlongest⟩ := exists_longest hpositions
    obtain ⟨d, hd, rfl⟩ := List.mem_map.1 hposition
    refine ⟨_, List.mem_map_of_mem hd, haligned.tight _ (List.mem_map_of_mem hd) ?_⟩
    rw [List.forall_mem_map] at hlongest ⊢
    exact hlongest
  . intro d hd
    exact length_lt_messageColumn (List.mem_map_of_mem hd)

def unevenDiagnostics : List Diagnostic :=
  [⟨some ⟨⟨"/p/né.rs"⟩, 1, 1⟩, "accented"⟩, ⟨some ⟨⟨"/p/abcd.rs"⟩, 12, 1⟩, "longest"⟩, ⟨none, "failed"⟩]

theorem render_aligned_sample
    : unevenDiagnostics ≠ []
        ∧ ∃ width records, List.Forall₂ (Record.IsOf ⟨"/p"⟩) unevenDiagnostics records
          ∧ AreAligned width records
          ∧ String.join (records.map (Record.line "" ""))
            = "./né.rs:1:1:    accented\n./abcd.rs:12:1: longest\n-:              failed\n"
          ∧ render ⟨"/p"⟩ .text true unevenDiagnostics
            = String.join (records.map (Record.line "\x1b[32m" "\x1b[0m")) := by
  have hne : unevenDiagnostics ≠ [] := by
    decide
  obtain ⟨width, records, hof, haligned, _, _, hplain, hcolored⟩ := render_aligned ⟨"/p"⟩ hne
  refine ⟨hne, width, records, hof, haligned, ?_, hcolored⟩
  rw [← hplain]
  decide +kernel

end Report

end PatternLint
