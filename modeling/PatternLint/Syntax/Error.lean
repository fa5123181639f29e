import PatternLint.Syntax.Token

/-!
This module contains the reasons for which a source text is refused.
-/

namespace PatternLint.Syntax

inductive SyntaxError.Cause where
  | unreadable
  -- Something else had to follow: one of `alternatives`, named as a reader knows them.
  | expected (alternatives : List String)
  | endedBefore (alternatives : List String)
  | surplus (enclosing : Option Delimiter)
  | rule (text : String)
  | ruleAtEnd (text : String)
  | tooDeep
  deriving Repr, DecidableEq

structure SyntaxError where
  location : Location
  cause : SyntaxError.Cause
  deriving Repr, DecidableEq

namespace SyntaxError.Cause

def describe : List String → String
  | [] => "unexpected token"
  | [a] => s!"expected {a}"
  | [a, b] => s!"expected {a} or {b}"
  | names => "expected one of: " ++ ", ".intercalate names

def message : Cause → String
  | unreadable => "cannot parse string into token stream"
  | expected names => describe names
  | endedBefore [] => "unexpected end of input"
  | endedBefore names => "unexpected end of input, " ++ describe names
  | surplus none => "unexpected token"
  | surplus (some .parenthesis) => "unexpected token, expected `)`"
  | surplus (some .brace) => "unexpected token, expected `\x7d`"
  | surplus (some .bracket) => "unexpected token, expected `]`"
  | rule text => text
  | ruleAtEnd text => "unexpected end of input, " ++ text
  | tooDeep => "nested too deeply"

end SyntaxError.Cause

namespace SyntaxError

def message (e : SyntaxError) : String :=
  e.cause.message

end SyntaxError

end PatternLint.Syntax
