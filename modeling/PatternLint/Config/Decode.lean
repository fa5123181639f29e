import PatternLint.Config
import PatternLint.Config.Error
import PatternLint.Number.Shortest
import PatternLint.Toml.Document

/-!
This module reads configurations from documents. A table is read entry by entry in its order, and
the first problem is reported; fields that are missing are noticed at its end. A checker or an
override may also be written as an array of its fields.
-/

namespace PatternLint

open Toml (Value)

def FoundValue.ofValue : Value → FoundValue
  | .text s => .text s
  | .integer n => .integer n
  | .float x => .float x.text
  | .boolean b => .boolean b
  -- a date shows itself as a map with one entry
  | .moment _ | .table _ => .map
  | .array _ => .sequence

def wrongType {α : Type} (v : Value) (expected : ExpectedValue) : Except ConfigFault α :=
  .error (.wrongType (.ofValue v) expected)

def decodeCount : Value → Except ConfigFault Nat
  | .integer n => if 0 ≤ n then .ok n.toNat else .error (.negativeCount n)
  | v => wrongType v .count

def decodeText : Value → Except ConfigFault String
  | .text s => .ok s
  | v => wrongType v .text

def decodeList {α : Type} (decode : Value → Except ConfigFault α) :
    Value → Except ConfigFault (List α)
  | .array items => items.mapM decode
  | v => wrongType v .sequence

def decodeTexts : Value → Except ConfigFault (List String) :=
  decodeList decodeText

def momentField : String :=
  "$__toml_private_datetime"

/--
Read the fields of a record from a table, from an array in the order of `fields`, or from anything
else, which fails.
-/
def decodeFields {α : Type} (expected : ExpectedValue) (fields : List String)
    (decodeField : α → String × Value → Except ConfigFault α) (start : α) :
    Value → Except ConfigFault α
  | .table entries => entries.foldlM decodeField start
  | .moment s => decodeField start (momentField, .text s)
  | .array items => (fields.zip items).foldlM decodeField start
  | v => wrongType v expected

structure CheckerDraft where
  name : Option String
  pattern : Option String
  message : Option String
  deriving DecidableEq, Repr, Inhabited

namespace CheckerDraft

def fields : List String :=
  ["name", "pattern", "message"]

def decodeField (d : CheckerDraft) (field : String × Value) : Except ConfigFault CheckerDraft := do
  let (name, v) := field
  match name with
  | "name" => return { d with name := some (← decodeText v) }
  | "pattern" => return { d with pattern := some (← decodeText v) }
  | "message" => return { d with message := some (← decodeText v) }
  | _ => throw (.unknownField name fields)

def require (name : String) : Option String → Except ConfigFault String
  | some s => .ok s
  | none => .error (.missingField name)

def finish (d : CheckerDraft) : Except ConfigFault CheckerEntry := do
  return ⟨← require "name" d.name, ← require "pattern" d.pattern, ← require "message" d.message⟩

end CheckerDraft

namespace CheckerEntry

def decode (v : Value) : Except ConfigFault CheckerEntry := do
  let blank : CheckerDraft := ⟨none, none, none⟩
  let draft ← decodeFields .checker CheckerDraft.fields CheckerDraft.decodeField blank v
  match v with
  | .array items =>
    if items.length < checkerLength then throw (.shortChecker items.length) else draft.finish
  | _ => draft.finish

end CheckerEntry

namespace OverrideEntry

def fields : List String :=
  ["package", "file", "enabled", "disabled"]

def decodeField (e : OverrideEntry) (field : String × Value) :
    Except ConfigFault OverrideEntry := do
  let (name, v) := field
  match name with
  | "package" => return { e with package := some (← decodeText v) }
  | "file" => return { e with file := some (← decodeText v) }
  | "enabled" => return { e with selection.enabled := some (← decodeTexts v) }
  | "disabled" => return { e with selection.disabled := some (← decodeTexts v) }
  | _ => throw (.unknownField name fields)

def decode : Value → Except ConfigFault OverrideEntry :=
  decodeFields .override fields decodeField ⟨none, none, ⟨none, none⟩⟩

end OverrideEntry

namespace Config

def fields : List String :=
  ["choke", "checkers", "enabled", "disabled", "ignored", "override"]

def decodeField (c : Config) (field : String × Value) : Except ConfigFault Config := do
  let (name, v) := field
  match name with
  | "choke" => return { c with choke := some (← decodeCount v) }
  | "checkers" => return { c with checkers := ← decodeList CheckerEntry.decode v }
  | "enabled" => return { c with selection.enabled := some (← decodeTexts v) }
  | "disabled" => return { c with selection.disabled := some (← decodeTexts v) }
  | "ignored" => return { c with ignored := ← decodeTexts v }
  | "override" => return { c with overrides := ← decodeList OverrideEntry.decode v }
  | _ => throw (.unknownField name fields)

def decode (entries : List (String × Value)) : Except ConfigFault Config :=
  entries.foldlM decodeField .empty

def ofText (text : String) : Except ConfigError Config :=
  match Toml.ofText? text with
  | none => .error .notDocument
  | some entries => (decode entries).mapError .fault

end Config

end PatternLint
