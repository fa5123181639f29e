import PatternLint.FileTree
import PatternLint.Text.Escaped
import PatternLint.Text.Split

/-!
This module contains the reasons for which a text is no configuration.
-/

namespace PatternLint

inductive FoundValue where
  | text (s : String)
  | integer (n : Int)
  | float (text : String)
  | boolean (b : Bool)
  | sequence
  | map
  deriving DecidableEq, Repr

inductive ExpectedValue where
  | count
  | text
  | sequence
  | checker
  | override
  deriving DecidableEq, Repr

inductive ConfigFault where
  | unknownField (name : String) (known : List String)
  | missingField (name : String)
  | wrongType (found : FoundValue) (expected : ExpectedValue)
  | negativeCount (n : Int)
  | shortChecker (length : Nat)
  deriving DecidableEq, Repr

inductive ConfigError where
  | io (path : Path) (error : IoError)
  | notDocument
  | fault (fault : ConfigFault)
  deriving DecidableEq, Repr

namespace FoundValue

def description : FoundValue → String
  | text s => s!"string {Text.escaped s}"
  | integer n => s!"integer `{n}`"
  | float shown => s!"floating point `{shown}`"
  | boolean b => s!"boolean `{b}`"
  | sequence => "sequence"
  | map => "map"

end FoundValue

namespace ExpectedValue

def description : ExpectedValue → String
  | count => "usize"
  | text => "a string"
  | sequence => "a sequence"
  | checker => "struct RawChecker"
  | override => "struct RawOverride"

end ExpectedValue

def checkerLength : Nat :=
  3

namespace ConfigFault

def message : ConfigFault → String
  | unknownField name known =>
    let known := ", ".intercalate (known.map Text.quoted)
    s!"unknown field {Text.quoted name}, expected one of {known}"
  | missingField name => s!"missing field {Text.quoted name}"
  | wrongType found expected =>
    s!"invalid type: {found.description}, expected {expected.description}"
  | negativeCount n =>
    let found := (FoundValue.integer n).description
    s!"invalid value: {found}, expected {ExpectedValue.count.description}"
  | shortChecker length =>
    let expected := ExpectedValue.checker.description
    s!"invalid length {length}, expected {expected} with {checkerLength} elements"

end ConfigFault

def unreadableMessage (path : Path) (error : IoError) : String :=
  s!"Failed to read config file {path.shown}: {error.message}"

end PatternLint
