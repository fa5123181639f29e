import PatternLint.Diagnostic
import PatternLint.Report.Json

/-!
This module writes diagnostics down: as lines of text in which the messages are aligned, or as a
document with one object for each diagnostic. Nothing is written where there are no diagnostics.
-/

namespace PatternLint.Report

inductive Format where
  | text
  | json
  deriving DecidableEq, Repr

def noPosition : String :=
  "-"

def positionText (root : Path) (d : Diagnostic) : String :=
  match d.position with
  | some p => p.relativeTo root
  | none => noPosition

def messageColumn (positions : List String) : Nat :=
  (positions.map String.length).foldl max 0 + 1

def paint (s : String) : String :=
  "\x1b[32m" ++ s ++ "\x1b[0m"

def textLine (color : Bool) (width : Nat) (position message : String) : String :=
  let padding := String.ofList (List.replicate (width - position.length) ' ')
  (if color then paint position else position) ++ ":" ++ padding ++ message ++ "\n"

def renderText (root : Path) (color : Bool) (ds : List Diagnostic) : String :=
  let width := messageColumn (ds.map (positionText root))
  String.join (ds.map fun d => textLine color width (positionText root d) d.message)

def fileText (root file : Path) : String :=
  ((root.stripPrefix? file).getD file).shown

def diagnosticJson (root : Path) (d : Diagnostic) : Json :=
  let field (value : Position → Json) : Json := (d.position.map value).getD .null
  .object [
    ("file", field fun p => .text (fileText root p.file)),
    ("line", field fun p => .number p.line),
    ("column", field fun p => .number p.column),
    ("message", .text d.message)]

def renderJson (root : Path) (ds : List Diagnostic) : String :=
  (Json.array (ds.map (diagnosticJson root))).render ++ "\n"

def render (root : Path) (format : Format) (color : Bool) (ds : List Diagnostic) : String :=
  if ds.isEmpty then
    ""
  else
    match format with
    | .text => renderText root color ds
    | .json => renderJson root ds

end PatternLint.Report
