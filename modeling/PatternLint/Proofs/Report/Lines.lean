import Mathlib.Data.List.Forall2
import PatternLint.Config.Decode
import PatternLint.Project
import PatternLint.Proofs.Except
import PatternLint.Proofs.Run.Budget
import PatternLint.Proofs.Text.Split
import PatternLint.Report.Render

/-!
This module contains the law of the lines of a report: how many there are, and when there is one line for
each diagnostic.
-/

namespace PatternLint

namespace Text

/-- A text is made of lines, each of which ends with a line feed. -/
structure IsMadeOfLines (cs : List Char) (lines : List (List Char)) : Prop where
  eq_flatMap : cs = lines.flatMap (· ++ ['\n'])
  no_feed : ∀ line ∈ lines, '\n' ∉ line

def feeds (s : String) : Nat :=
  s.toList.count '\n'

theorem feeds_eq_zero_iff {s : String} : feeds s = 0 ↔ '\n' ∉ s.toList := by
  apply List.count_eq_zero

theorem IsMadeOfLines.append {cs ds : List Char} {lines others : List (List Char)} (h : IsMadeOfLines cs lines)
    (h' : IsMadeOfLines ds others) : IsMadeOfLines (cs ++ ds) (lines ++ others) := by
  constructor
  . rw [List.flatMap_append, ← h.eq_flatMap, ← h'.eq_flatMap]
  . intro line hline
    exact (List.mem_append.1 hline).elim (h.no_feed line) (h'.no_feed line)

theorem IsMadeOfLines.length_eq {cs : List Char} {lines : List (List Char)} (h : IsMadeOfLines cs lines)
    : lines.length = cs.count '\n' := by
  obtain ⟨rfl, hno⟩ := h
  induction lines with
  | nil => rfl
  | cons line lines ih =>
    have hline : line.count '\n' = 0 := List.count_eq_zero.2 (hno line List.mem_cons_self)
    rw [List.flatMap_cons, List.count_append, List.count_append, hline, List.length_cons,
      ih fun other hother => hno other (List.mem_cons_of_mem _ hother)]
    simp [Nat.add_comm]

theorem flatMap_concat (sep : Char) {pieces : List (List Char)} (h : pieces ≠ [])
    : pieces.flatMap (· ++ [sep]) = [sep].intercalate pieces ++ [sep] := by
  induction pieces with
  | nil => contradiction
  | cons piece pieces ih =>
    cases pieces with
    | nil => simp
    | cons next pieces =>
      rw [List.flatMap_cons, ih (by simp), List.intercalate_cons_cons]
      simp only [List.append_assoc]

theorem isMadeOfLines_splitAt (cs : List Char) : IsMadeOfLines (cs ++ ['\n']) (splitAt '\n' cs) := by
  constructor
  . rw [flatMap_concat '\n' (splitAt_ne_nil '\n' cs), intercalate_splitAt]
  . intro line
    apply not_mem_of_mem_splitAt

end Text

namespace Report

open Text

def linePosition (root : Path) (color : Bool) (d : Diagnostic) : String :=
  if color then paint (positionText root d) else positionText root d

structure IsLineOf (root : Path) (color : Bool) (d : Diagnostic) (line : List Char) : Prop where
  starts : (linePosition root color d).toList <+: line
  ends : d.message.toList <:+ line

def IsOneLine (root : Path) (d : Diagnostic) : Prop :=
  feeds (positionText root d) = 0 ∧ feeds d.message = 0

instance (root : Path) (d : Diagnostic) : Decidable (IsOneLine root d) :=
  inferInstanceAs (Decidable (_ ∧ _))

def feedsOf (root : Path) : List Diagnostic → Nat
  | [] => 0
  | d :: ds => feeds (positionText root d) + feeds d.message + feedsOf root ds

def lineBody (root : Path) (color : Bool) (width : Nat) (d : Diagnostic) : List Char :=
  (linePosition root color d).toList
    ++ ':' :: List.replicate (width - (positionText root d).length) ' ' ++ d.message.toList

section Line

variable (root : Path) (color : Bool) (width : Nat) (d : Diagnostic)

theorem toList_textLine
    : (textLine color width (positionText root d) d.message).toList
        =
      lineBody root color width d ++ ['\n'] := by
  unfold textLine lineBody linePosition
  simp

theorem count_linePosition : (linePosition root color d).toList.count '\n' = feeds (positionText root d) := by
  unfold linePosition
  split
  . unfold paint feeds
    rw [String.toList_append, String.toList_append, List.count_append, List.count_append]
    have hon : "\x1b[32m".toList.count '\n' = 0 := by decide
    have hoff : "\x1b[0m".toList.count '\n' = 0 := by decide
    omega
  . rfl

theorem count_lineBody
    : (lineBody root color width d).count '\n' = feeds (positionText root d) + feeds d.message := by
  unfold lineBody
  rw [List.count_append, List.count_append, count_linePosition, List.count_cons_of_ne (by decide),
    List.count_replicate, if_neg (by decide), Nat.add_zero]
  rfl

theorem isLineOf_lineBody : IsLineOf root color d (lineBody root color width d) := by
  constructor
  . exact ⟨_, (List.append_assoc ..).symm⟩
  . exact ⟨_, rfl⟩

theorem splitAt_lineBody (h : IsOneLine root d)
    : splitAt '\n' (lineBody root color width d) = [lineBody root color width d] := by
  apply splitAt_eq_singleton
  rw [← List.count_eq_zero, count_lineBody, h.1, h.2]

end Line

theorem isOneLine_of_isLineOf {root : Path} {color : Bool} {d : Diagnostic} {line : List Char}
    (h : IsLineOf root color d line) (hno : '\n' ∉ line) : IsOneLine root d := by
  constructor
  . rw [← count_linePosition root color, List.count_eq_zero]
    exact fun hfeed => hno (h.starts.subset hfeed)
  . rw [feeds_eq_zero_iff]
    exact fun hfeed => hno (h.ends.subset hfeed)

theorem isMadeOfLines_flatMap {α : Type} (body : α → List Char) (as : List α)
    : IsMadeOfLines (as.flatMap fun a => body a ++ ['\n']) (as.flatMap fun a => splitAt '\n' (body a)) := by
  induction as with
  | nil => exact ⟨rfl, by simp⟩
  | cons a as ih => exact (isMadeOfLines_splitAt (body a)).append ih

theorem toList_renderText (root : Path) (color : Bool) (ds : List Diagnostic)
    : ∃ width, (renderText root color ds).toList = ds.flatMap fun d => lineBody root color width d ++ ['\n'] := by
  refine ⟨messageColumn (ds.map (positionText root)), ?_⟩
  unfold renderText
  dsimp only
  rw [String.toList_join, List.flatMap_map]
  simp only [toList_textLine]

theorem isOneLine_of_forall₂ {root : Path} {color : Bool} {ds : List Diagnostic} {lines : List (List Char)}
    (h : List.Forall₂ (IsLineOf root color) ds lines) (hno : ∀ line ∈ lines, '\n' ∉ line)
    : ∀ d ∈ ds, IsOneLine root d := by
  induction h with
  | nil => simp
  | @cons d line ds lines hline hlines ih =>
    rw [List.forall_mem_cons] at hno ⊢
    exact ⟨isOneLine_of_isLineOf hline hno.1, ih hno.2⟩

theorem forall₂_of_isOneLine {root : Path} (color : Bool) (width : Nat) {ds : List Diagnostic}
    (h : ∀ d ∈ ds, IsOneLine root d)
    : List.Forall₂ (IsLineOf root color) ds
        (ds.flatMap fun d => splitAt '\n' (lineBody root color width d)) := by
  induction ds with
  | nil => exact .nil
  | cons d ds ih =>
    rw [List.forall_mem_cons] at h
    rw [List.flatMap_cons, splitAt_lineBody root color width d h.1]
    exact .cons (isLineOf_lineBody root color width d) (ih h.2)

theorem isMadeOfLines_renderText (root : Path) (color : Bool) (ds : List Diagnostic)
    : ∃ lines, IsMadeOfLines (renderText root color ds).toList lines
        ∧ ((∀ d ∈ ds, IsOneLine root d) → List.Forall₂ (IsLineOf root color) ds lines) := by
  obtain ⟨width, hwidth⟩ := toList_renderText root color ds
  have hlines := isMadeOfLines_flatMap (lineBody root color width) ds
  exact ⟨_, hwidth ▸ hlines, forall₂_of_isOneLine color width⟩

theorem count_renderText (root : Path) (color : Bool) (ds : List Diagnostic)
    : (renderText root color ds).toList.count '\n' = ds.length + feedsOf root ds := by
  obtain ⟨width, hwidth⟩ := toList_renderText root color ds
  rw [hwidth]
  clear hwidth
  induction ds with
  | nil => rfl
  | cons d ds ih =>
    rw [List.flatMap_cons, List.count_append, List.count_append, count_lineBody, ih, List.length_cons,
      List.count_singleton_self, feedsOf]
    omega

/--
A text report is made of lines: one for each diagnostic, and one more for each line feed in a position or a
message. Exactly where there are no such line feeds, each diagnostic has a line of its own.
-/
theorem renderText_lines (root : Path) (color : Bool) (ds : List Diagnostic)
    : ∃ lines, IsMadeOfLines (renderText root color ds).toList lines
        ∧ lines.length = ds.length + feedsOf root ds
        ∧ (List.Forall₂ (IsLineOf root color) ds lines ↔ ∀ d ∈ ds, IsOneLine root d) := by
  obtain ⟨lines, hlines, hall⟩ := isMadeOfLines_renderText root color ds
  refine ⟨lines, hlines, ?_, ?_, hall⟩
  . rw [hlines.length_eq, count_renderText]
  . intro h
    exact isOneLine_of_forall₂ h hlines.no_feed

section Run

variable {U P : Type} {find : Matcher U P} {budget : Budget} {s : Schedule U P} {run : Run}

theorem mem_findings_of_mem_outcome (hrun : Run.ofSchedule? find budget s = some run) {d : Diagnostic}
    (h : d ∈ run.outcome.diagnostics) : d ∈ findings find s.pairs := by
  rw [Run.diagnostics_eq_take (Run.settles_of_ofSchedule? hrun).2] at h
  exact List.mem_of_mem_take h

theorem lines_of_run (hrun : Run.ofSchedule? find budget s = some run) (root : Path) (color : Bool)
    (hmessages : ∀ check ∈ s.pairs, feeds check.2.message = 0)
    (hfailures : ∀ check ∈ s.pairs, ∀ text, find check.1 check.2.pattern = .error text → feeds text = 0)
    (hpositions : ∀ check ∈ s.pairs, ∀ groups, find check.1 check.2.pattern = .ok groups
      → ∀ group ∈ groups, ∀ p ∈ group, feeds (p.relativeTo root) = 0)
    : ∃ lines, IsMadeOfLines (renderText root color run.outcome.diagnostics).toList lines
        ∧ List.Forall₂ (IsLineOf root color) run.outcome.diagnostics lines := by
  obtain ⟨lines, hlines, hall⟩ := isMadeOfLines_renderText root color run.outcome.diagnostics
  refine ⟨lines, hlines, hall ?_⟩
  intro d hd
  obtain ⟨check, hcheck, hd⟩ := List.mem_flatMap.1 (mem_findings_of_mem_outcome hrun hd)
  split at hd
  . next groups hfind =>
    obtain ⟨group, hgroup, hd⟩ := List.mem_flatMap.1 hd
    obtain ⟨p, hp, rfl⟩ := List.mem_map.1 hd
    exact ⟨hpositions check hcheck groups hfind group hgroup p hp, hmessages check hcheck⟩
  . next text hfind =>
    rw [List.mem_singleton.1 hd]
    exact ⟨(by decide : feeds noPosition = 0), hfailures check hcheck text hfind⟩

end Run

section Sample

def feedText : String :=
  "[[checkers]]\nname = \"a\"\npattern = \"fn\"\nmessage = \"\"\"\nNo functions.\n\"\"\"\n"

def feedConfig : Config :=
  { Config.empty with checkers := [⟨"a", "fn", "No functions.\n"⟩] }

def feedTree : FileTree :=
  .directory [("p", .directory [("a.rs", .file "fn f() {}".toUTF8)])]

theorem ofText_feedText : Config.ofText feedText = .ok feedConfig := by
  decide +kernel

theorem exists_run_of_diagnostics {tree : FileTree} {root : Path} {c : Config} {ds : List Diagnostic}
    (h : ((Project.prepare tree root c).toOption.bind fun project =>
      project.run?.map fun run => run.outcome.diagnostics) = some ds)
    : ∃ project run, Project.prepare tree root c = .ok project ∧ project.run? = some run
        ∧ run.outcome.diagnostics = ds := by
  obtain ⟨project, hprepare, h⟩ := Option.bind_eq_some_iff.1 h
  obtain ⟨run, hrun, hdiagnostics⟩ := Option.map_eq_some_iff.1 h
  exact ⟨project, run, toOption_eq_some_iff.1 hprepare, hrun, hdiagnostics⟩

theorem prepare_feedTree
    : ∃ project run, Project.prepare feedTree ⟨"/p"⟩ feedConfig = .ok project ∧ project.run? = some run
        ∧ run.outcome.diagnostics = [⟨some ⟨⟨"/p/a.rs"⟩, 1, 4⟩, "No functions.\n"⟩] := by
  apply exists_run_of_diagnostics
  decide +kernel

theorem two_lines_for_one_diagnostic
    : Config.ofText feedText = .ok feedConfig
        ∧ ∃ project run, Project.prepare feedTree ⟨"/p"⟩ feedConfig = .ok project ∧ project.run? = some run
          ∧ run.outcome.diagnostics.length = 1
          ∧ (∃ lines, IsMadeOfLines (renderText ⟨"/p"⟩ false run.outcome.diagnostics).toList lines)
          ∧ ∀ lines, IsMadeOfLines (renderText ⟨"/p"⟩ false run.outcome.diagnostics).toList lines
            → lines.length = 2 ∧ ¬ List.Forall₂ (IsLineOf ⟨"/p"⟩ false) run.outcome.diagnostics lines := by
  obtain ⟨project, run, hprepare, hrun, hdiagnostics⟩ := prepare_feedTree
  obtain ⟨lines, hlines, _⟩ := isMadeOfLines_renderText ⟨"/p"⟩ false run.outcome.diagnostics
  refine ⟨ofText_feedText, project, run, hprepare, hrun, ?_, ⟨lines, hlines⟩, ?_⟩
  . rw [hdiagnostics]
    rfl
  . intro lines hlines
    have htwo : lines.length = 2 := by
      rw [hlines.length_eq, hdiagnostics]
      decide
    refine ⟨htwo, ?_⟩
    intro hall
    have hone := hall.length_eq
    rw [hdiagnostics, htwo] at hone
    exact absurd hone (by decide)

end Sample

end Report

end PatternLint
