import PatternLint.Proofs.Path
import PatternLint.Proofs.Report.Columns
import PatternLint.Proofs.Report.Reader

/-!
This module contains the law of the two forms of a report: the document can be read back, and what stands
in it and in the lines of text is the same for each diagnostic.
-/

namespace PatternLint

namespace Report

def IsUnder (root file : Path) : Prop :=
  root.components <+: file.components

instance (root file : Path) : Decidable (IsUnder root file) :=
  inferInstanceAs (Decidable (root.components <+: file.components))

example : IsUnder ⟨"/work//project/"⟩ ⟨"/work/project/./a.rs"⟩ := by
  decide

example : ¬ IsUnder ⟨"/work/project"⟩ ⟨"/work/project2/a.rs"⟩ := by
  decide

structure Places (root : Path) (p : Position) (name shown : String) : Prop where
  leads_back : (root.join ⟨name⟩).components = p.file.components
  relative_iff : Path.isAbsolute ⟨name⟩ = false ↔ IsUnder root p.file
  dotted_iff : shown = s!"./{name}:{p.line}:{p.column}" ↔ IsUnder root p.file
  full_iff : shown = s!"{name}:{p.line}:{p.column}" ↔ ¬ IsUnder root p.file

def TellsPosition (root : Path) (d : Diagnostic) (shown : String) (object : Json) : Prop :=
  ∃ file line column,
    object = .object [("file", file), ("line", line), ("column", column), ("message", .text d.message)]
    ∧ (file = .null ↔ d.position = none)
    ∧ (line = .null ↔ d.position = none)
    ∧ (column = .null ↔ d.position = none)
    ∧ (shown = "-" ↔ file = .null)
    ∧ ∀ p ∈ d.position,
      line = .number p.line ∧ column = .number p.column
        ∧ ∃ name, file = .text name ∧ Places root p name shown

structure Tells (root : Path) (d : Diagnostic) (r : Record) (object : Json) : Prop where
  message_eq : r.message = d.message
  apart : 1 ≤ r.padding.length
  spaces : ∀ c ∈ r.padding, c = ' '
  tellsPosition : TellsPosition root d r.position object

section Position

variable (p : Position)

theorem relativeTo_eq_render (root : Path) : ∃ file, p.relativeTo root = p.render file := by
  unfold Position.relativeTo
  split
  . split
    . exact ⟨_, rfl⟩
    . exact ⟨_, rfl⟩
  . exact ⟨_, rfl⟩

theorem relativeTo_ne_noPosition (root : Path) : p.relativeTo root ≠ noPosition := by
  intro h
  obtain ⟨file, hfile⟩ := relativeTo_eq_render p root
  have hcolon : ':' ∈ (p.render file).toList := by
    unfold Position.render
    rw [String.toList_append, String.toList_append]
    exact List.mem_append_left _ (List.mem_append_right _ (by decide : ':' ∈ ":".toList))
  rw [← hfile, h] at hcolon
  contradiction

theorem render_dotted_ne (file : String) : p.render ("./" ++ file) ≠ p.render file := by
  intro h
  have hfile : toString ("./" ++ file) = toString file := by
    simpa [Position.render] using h
  have hlength : ("./" ++ file).length = file.length := congrArg String.length hfile
  rw [String.length_append] at hlength
  have : "./".length = 2 := rfl
  omega

theorem places_of_isUnder {root : Path} (hroot : root.isAbsolute = true) (hfile : p.file.isAbsolute = true)
    (htext : p.file.text.IsText) (h : IsUnder root p.file)
    : Places root p (fileText root p.file) (p.relativeTo root) := by
  obtain ⟨rest, hrest, hrelative, hjoin⟩ := Path.exists_stripPrefix?_eq_some hroot hfile h
  have hname : fileText root p.file = rest.shown := by
    unfold fileText
    rw [hrest]
    rfl
  have hpath : (⟨rest.shown⟩ : Path) = rest :=
    congrArg Path.mk (Path.isText_of_stripPrefix? hfile htext hrest).ofString_shown
  have hempty : root.text.isEmpty = false := by
    rw [Bool.eq_false_iff]
    intro hempty
    rw [Path.isAbsolute, RawText.isEmpty_iff.1 hempty] at hroot
    contradiction
  have hshown : p.relativeTo root = p.render ("./" ++ rest.shown) := by
    unfold Position.relativeTo
    rw [hrest]
    dsimp only
    rw [hempty, if_neg (by simp)]
  rw [hname, hshown]
  constructor
  . rw [hpath]
    exact hjoin
  . rw [hpath]
    exact iff_of_true hrelative h
  . exact iff_of_true rfl h
  . exact iff_of_false (render_dotted_ne p rest.shown) (not_not_intro h)

theorem places_of_not_isUnder {root : Path} (hfile : p.file.isAbsolute = true)
    (htext : p.file.text.IsText) (h : ¬ IsUnder root p.file)
    : Places root p (fileText root p.file) (p.relativeTo root) := by
  have hrest := Path.stripPrefix?_eq_none h
  have hname : fileText root p.file = p.file.shown := by
    unfold fileText
    rw [hrest]
    rfl
  have hpath : (⟨p.file.shown⟩ : Path) = p.file := congrArg Path.mk htext.ofString_shown
  have hshown : p.relativeTo root = p.render p.file.shown := by
    unfold Position.relativeTo
    rw [hrest]
    rfl
  rw [hname, hshown]
  constructor
  . rw [hpath, Path.join, if_pos hfile]
  . rw [hpath]
    exact iff_of_false (by simp [hfile]) h
  . exact iff_of_false (render_dotted_ne p p.file.shown).symm h
  . exact iff_of_true rfl h

theorem places {root : Path} (hroot : root.isAbsolute = true)
    (hfile : p.file.isAbsolute = true ∧ p.file.text.IsText)
    : Places root p (fileText root p.file) (p.relativeTo root) := by
  by_cases h : IsUnder root p.file
  . exact places_of_isUnder p hroot hfile.1 hfile.2 h
  . exact places_of_not_isUnder p hfile.1 hfile.2 h

end Position

theorem tellsPosition {root : Path} (hroot : root.isAbsolute = true) {d : Diagnostic}
    (hfile : ∀ p ∈ d.position, p.file.isAbsolute = true ∧ p.file.text.IsText)
    : TellsPosition root d (positionText root d) (diagnosticJson root d) := by
  refine ⟨_, _, _, rfl, ?_⟩
  unfold positionText
  cases hposition : d.position with
  | none =>
    simp only [Option.map_none, Option.getD_none, true_and]
    exact ⟨iff_of_true rfl trivial, by simp⟩
  | some p =>
    simp only [Option.map_some, Option.getD_some, reduceCtorEq, iff_false, true_and]
    refine ⟨relativeTo_ne_noPosition p root, ?_⟩
    intro q hq
    cases hq
    exact ⟨rfl, rfl, _, rfl, places p hroot (hfile p hposition)⟩

theorem ofText?_renderJson (root : Path) (ds : List Diagnostic)
    : Json.ofText? (renderJson root ds) = some (.array (ds.map (diagnosticJson root))) := by
  unfold renderJson
  apply Json.ofText?_render
  intro c hc
  rw [List.mem_singleton.1 hc]
  rfl

/--
Of the same diagnostics, the two forms of a report tell the same in the same order: for each one there is
a line of text and an object. Without diagnostics, both are empty.
-/
theorem render_agrees {root : Path} (hroot : root.isAbsolute = true) {ds : List Diagnostic}
    (hfiles : ∀ d ∈ ds, ∀ p ∈ d.position, p.file.isAbsolute = true ∧ p.file.text.IsText)
    : (ds = [] → ∀ format color, render root format color ds = "")
        ∧ (ds ≠ []
          → ∃ (record : Diagnostic → Record) (object : Diagnostic → Json),
              render root .text false ds = String.join (ds.map fun d => (record d).line "" "")
                ∧ render root .text true ds
                  = String.join (ds.map fun d => (record d).line "\x1b[32m" "\x1b[0m")
                ∧ (∀ color, Json.ofText? (render root .json color ds) = some (.array (ds.map object)))
                ∧ ∀ d ∈ ds, Tells root d (record d) (object d)) := by
  constructor
  . rintro rfl format color
    rfl
  . intro hne
    obtain ⟨hplain, hcolored⟩ := render_eq_records root hne
    have haligned := areAligned_records root ds
    rw [List.map_map] at hplain hcolored
    refine ⟨recordOf root (messageColumn (ds.map (positionText root))), diagnosticJson root, hplain,
      hcolored, ?_, ?_⟩
    . intro color
      unfold render
      rw [if_neg (by simpa using hne)]
      exact ofText?_renderJson root ds
    . intro d hd
      have hrecord := List.mem_map_of_mem (f := recordOf root (messageColumn (ds.map (positionText root)))) hd
      exact ⟨rfl, haligned.apart _ hrecord, haligned.spaces _ hrecord, tellsPosition hroot (hfiles d hd)⟩

def sampleDiagnostics : List Diagnostic :=
  [⟨some ⟨⟨"/work/project"⟩, 1, 2⟩, "at the root"⟩,
    ⟨some ⟨⟨"/work/project/src//a.rs"⟩, 12, 5⟩, "below"⟩,
    ⟨some ⟨⟨"/work/project2/a.rs"⟩, 3, 1⟩, "beside"⟩,
    ⟨none, "no \"place\"\n"⟩]

theorem render_agrees_sample
    : Path.isAbsolute ⟨"/work/project/"⟩ = true
        ∧ (∀ d ∈ sampleDiagnostics, ∀ p ∈ d.position, p.file.isAbsolute = true ∧ p.file.text.IsText)
        ∧ ∃ (record : Diagnostic → Record) (object : Diagnostic → Json),
            render ⟨"/work/project/"⟩ .text false sampleDiagnostics
                = String.join (sampleDiagnostics.map fun d => (record d).line "" "")
              ∧ (∀ color, Json.ofText? (render ⟨"/work/project/"⟩ .json color sampleDiagnostics)
                = some (.array (sampleDiagnostics.map object)))
              ∧ ∀ d ∈ sampleDiagnostics, Tells ⟨"/work/project/"⟩ d (record d) (object d) := by
  have hfiles : ∀ d ∈ sampleDiagnostics, ∀ p ∈ d.position,
      p.file.isAbsolute = true ∧ p.file.text.IsText := by
    decide
  have hroot : Path.isAbsolute ⟨"/work/project/"⟩ = true := by
    decide
  obtain ⟨record, object, hplain, _, hdocument, htells⟩ := (render_agrees hroot hfiles).2 (by decide)
  exact ⟨hroot, hfiles, record, object, hplain, hdocument, htells⟩

end Report

end PatternLint
