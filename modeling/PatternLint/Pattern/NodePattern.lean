import PatternLint.Pattern.Glob
import PatternLint.Pattern.PathPattern

/-!
This module contains patterns for the nodes of syntax trees. A pattern is one or more terms between
bars. A term names a kind of nodes, and may narrow it by an argument in parentheses: a glob for
nodes that have a name, and a path pattern for those that have a path.
-/

namespace PatternLint

inductive NodeKind where
  | function
  | struct
  | enum
  | trait
  | methodCall
  | call
  | macroCall
  | useLeaf
  | unsafeBlock
  deriving DecidableEq, Repr

namespace NodeKind

def all : List NodeKind :=
  [function, struct, enum, trait, methodCall, call, macroCall, useLeaf, unsafeBlock]

def keyword : NodeKind → String
  | function => "fn"
  | struct => "struct"
  | enum => "enum"
  | trait => "trait"
  | methodCall => "method-call"
  | call => "call"
  | macroCall => "macro"
  | useLeaf => "use"
  | unsafeBlock => "unsafe"

def ofKeyword? (word : String) : Option NodeKind :=
  all.find? fun kind => kind.keyword == word

inductive ArgumentSort where
  | name
  | path
  | nothing
  deriving DecidableEq, Repr

def argumentSort : NodeKind → ArgumentSort
  | function | struct | enum | trait | methodCall => .name
  | call | macroCall | useLeaf => .path
  | unsafeBlock => .nothing

end NodeKind

inductive PatternError where
  | emptyPattern
  | emptyTerm
  | unbalancedParentheses (term : String)
  | unknownKind (word : String)
  | emptyArgument (kind : NodeKind)
  | needlessArgument (kind : NodeKind)
  | invalidGlob (text : String) (error : Glob.Error)
  | emptySegment (text : String)
  deriving DecidableEq, Repr

namespace PatternError

open Text (quoted)

def message : PatternError → String
  | emptyPattern => "empty pattern"
  | emptyTerm => "empty term"
  | unbalancedParentheses term => s!"unbalanced parentheses in {quoted term}"
  | unknownKind word => s!"unknown node kind {quoted word}"
  | emptyArgument kind => s!"empty argument to {quoted kind.keyword}"
  | needlessArgument kind => s!"{quoted kind.keyword} takes no argument"
  | invalidGlob text error => s!"invalid glob {quoted text}: {error.message}"
  | emptySegment text => s!"invalid path pattern {quoted text}: empty segment"

end PatternError

namespace PathPattern

def compile (text : String) : Except PatternError PathPattern :=
  (parse text).mapError PatternError.emptySegment

end PathPattern

inductive NodePattern.Argument where
  | any
  | name (glob : Glob)
  | path (pattern : PathPattern)
  deriving DecidableEq, Repr

structure NodePattern.Term where
  kind : NodeKind
  argument : NodePattern.Argument
  deriving DecidableEq, Repr

structure NodePattern where
  source : String
  terms : List NodePattern.Term
  deriving DecidableEq, Repr

namespace NodePattern

namespace Argument

def accepts (subject : String) : Argument → Bool
  | any => true
  | name glob => glob.accepts subject
  | path pattern => pattern.accepts subject

def parse (kind : NodeKind) (text : String) : Except PatternError Argument :=
  if text.isEmpty then
    .error (.emptyArgument kind)
  else
    match kind.argumentSort with
    | .nothing => .error (.needlessArgument kind)
    | .name =>
      match Glob.parse text with
      | .ok glob => .ok (.name glob)
      | .error e => .error (.invalidGlob text e)
    | .path => (PathPattern.compile text).map path

end Argument

namespace Term

def split? (text : List Char) : Option (List Char × Option (List Char)) :=
  let word := Text.trim (text.takeWhile (· != '('))
  match text.dropWhile (· != '(') with
  | [] => if word.contains ')' then none else some (word, none)
  | _ :: rest =>
    if rest.getLast? = some ')' then
      let argument := Text.trim rest.dropLast
      -- parentheses do not nest
      if word.contains ')' || argument.contains '(' || argument.contains ')' then
        none
      else
        some (word, some argument)
    else
      none

def parse (text : List Char) : Except PatternError Term :=
  let text := Text.trim text
  if text.isEmpty then
    .error .emptyTerm
  else
    match split? text with
    | none => .error (.unbalancedParentheses (String.ofList text))
    | some (word, argument?) =>
      match NodeKind.ofKeyword? (String.ofList word) with
      | none => .error (.unknownKind (String.ofList word))
      | some kind =>
        match argument? with
        | none => .ok ⟨kind, .any⟩
        | some argument => (Argument.parse kind (String.ofList argument)).map (Term.mk kind)

def accepts (kind : NodeKind) (subject : String) (t : Term) : Bool :=
  t.kind = kind ∧ t.argument.accepts subject

end Term

def parse (source : String) : Except PatternError NodePattern :=
  if Text.isAllBlank source.toList then
    .error .emptyPattern
  else do
    let terms ← (Text.splitAt '|' source.toList).mapM Term.parse
    return ⟨source, terms⟩

def wants (p : NodePattern) (kind : NodeKind) : Bool :=
  p.terms.any fun t => t.kind = kind

def accepts (p : NodePattern) (kind : NodeKind) (subject : String) : Bool :=
  p.terms.any (Term.accepts kind subject)

end NodePattern

end PatternLint
