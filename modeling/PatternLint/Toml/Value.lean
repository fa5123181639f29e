import PatternLint.Number.Binary64

/-!
This module contains the values of TOML documents.
-/

namespace PatternLint.Toml

inductive Value where
  | text (s : String)
  | integer (n : Int)
  | float (x : Binary64)
  | boolean (b : Bool)
  | moment (s : String)
  | array (items : List Value)
  | table (entries : List (String × Value))
  deriving Inhabited

end PatternLint.Toml
