import PatternLint.Path
import PatternLint.Report.Render
import PatternLint.Text.Split

/-!
This module reads the arguments of the command. Flags stand before or after the word for what is to
be done, and some of them only after it. A value follows its flag as the next argument, or in the
same one. Arguments are read from the first one on, and the first that settles the matter does so:
a mistake, or a request for help or for the version.
-/

namespace PatternLint.Command

inductive Flag where
  | verbose
  | config
  | choke
  | format
  | root
  | help
  | version
  deriving DecidableEq, Repr

inductive Scope where
  | program
  | check
  deriving DecidableEq, Repr

namespace Flag

def name : Flag → String
  | verbose => "verbose"
  | config => "config"
  | choke => "choke"
  | format => "format"
  | root => "root"
  | help => "help"
  | version => "version"

def letter? : Flag → Option Char
  | verbose => some 'v'
  | config => some 'c'
  | format => some 'f'
  | help => some 'h'
  | version => some 'V'
  | choke | root => none

def hasValue : Flag → Bool
  | config | choke | format | root => true
  | verbose | help | version => false

end Flag

namespace Scope

def flags : Scope → List Flag
  | program => [.verbose, .config, .help, .version]
  | check => [.choke, .verbose, .config, .format, .root, .help]

def flagOfName? (s : Scope) (name : String) : Option Flag :=
  s.flags.find? fun flag => flag.name == name

def flagOfLetter? (s : Scope) (c : Char) : Option Flag :=
  s.flags.find? fun flag => flag.letter? == some c

end Scope

inductive Misuse where
  | unknownFlag (text : String)
  | unexpectedWord (word : String)
  | missingValue (flag : Flag)
  | needlessValue (flag : Flag)
  | invalidValue (flag : Flag) (value : String)
  | repeated (flag : Flag)
  | noRequest
  deriving DecidableEq, Repr

inductive Stop where
  | misuse (m : Misuse)
  | help (scope : Scope)
  | version
  deriving DecidableEq, Repr

def Misuse.message : Misuse → String
  | unknownFlag text => s!"unexpected argument '{text}' found"
  | unexpectedWord word => s!"unexpected argument '{word}' found"
  | missingValue flag => s!"a value is required for '--{flag.name}' but none was supplied"
  | needlessValue flag => s!"unexpected value for '--{flag.name}' found; no more were expected"
  | invalidValue flag value => s!"invalid value '{value}' for '--{flag.name}'"
  | repeated flag => s!"the argument '--{flag.name}' cannot be used multiple times"
  | noRequest => "a subcommand is required but one was not provided"

structure Settings where
  verbose : Bool
  config : Option Path
  choke : Option Nat
  format : Option Report.Format
  root : Option Path
  deriving Repr

namespace Settings

def none : Settings :=
  ⟨false, .none, .none, .none, .none⟩

end Settings

def maxCount : Nat :=
  UInt64.size - 1

def countOfText? (text : String) : Option Nat :=
  let digits := match text.toList with
    | '+' :: cs => cs
    | cs => cs
  if digits.isEmpty || !digits.all Char.isDigit then
    none
  else
    let n := digits.foldl (fun n c => 10 * n + (c.toNat - '0'.toNat)) 0
    if n ≤ maxCount then some n else none

def pathOfText? (text : String) : Option Path :=
  if text.isEmpty then none else some ⟨text⟩

def formatOfText? : String → Option Report.Format
  | "text" => some .text
  | "json" => some .json
  | _ => none

namespace Settings

def fill {α : Type} (flag : Flag) (text : String) (old new : Option α) :
    Except Stop (Option α) :=
  match new, old with
  | .none, _ => .error (.misuse (.invalidValue flag text))
  | some _, some _ => .error (.misuse (.repeated flag))
  | some a, .none => .ok (some a)

def give (s : Settings) (flag : Flag) (text : String) : Except Stop Settings := do
  match flag with
  | .config => return { s with config := ← fill flag text s.config (pathOfText? text) }
  | .choke => return { s with choke := ← fill flag text s.choke (countOfText? text) }
  | .format => return { s with format := ← fill flag text s.format (formatOfText? text) }
  | .root => return { s with root := ← fill flag text s.root (pathOfText? text) }
  | _ => throw (.misuse (.needlessValue flag))

def raise (s : Settings) (scope : Scope) (flag : Flag) : Except Stop Settings :=
  match flag with
  | .verbose =>
    if s.verbose then .error (.misuse (.repeated flag)) else .ok { s with verbose := true }
  | .help => .error (.help scope)
  | .version => .error .version
  | _ => .error (.misuse (.missingValue flag))

end Settings

inductive FlagForm where
  | long (name : String) (value : Option String)
  | letters (cs : List Char)
  deriving DecidableEq, Repr

inductive Argument where
  | flags (form : FlagForm)
  | separator
  | word (text : String)
  deriving DecidableEq, Repr

namespace Argument

def ofText (text : String) : Argument :=
  match text.toList with
  | ['-', '-'] => separator
  | '-' :: '-' :: cs =>
    match cs.span (· != '=') with
    | (name, []) => flags (.long (String.ofList name) none)
    | (name, _ :: value) => flags (.long (String.ofList name) (some (String.ofList value)))
  | '-' :: c :: cs => flags (.letters (c :: cs))
  -- a dash alone is a word
  | _ => word text

def isValue (text : String) : Bool :=
  match ofText text with
  | word _ => true
  | _ => false

end Argument

structure Step where
  settings : Settings
  waiting : Option Flag

def readLong (scope : Scope) (s : Settings) (name : String) (value : Option String) :
    Except Stop Step := do
  let some flag := scope.flagOfName? name | throw (.misuse (.unknownFlag ("--" ++ name)))
  match value with
  | some text => return ⟨← s.give flag text, none⟩
  | none => if flag.hasValue then return ⟨s, some flag⟩ else return ⟨← s.raise scope flag, none⟩

def readLetters (scope : Scope) (s : Settings) : List Char → Except Stop Step
  | [] => .ok ⟨s, none⟩
  | c :: cs =>
    match scope.flagOfLetter? c with
    | none => .error (.misuse (.unknownFlag (String.ofList ['-', c])))
    | some flag =>
      if !flag.hasValue then do
        readLetters scope (← s.raise scope flag) cs
      else
        match cs with
        | [] => .ok ⟨s, some flag⟩
        -- what stands after a letter that takes a value is the value
        | '=' :: cs | cs => (s.give flag (String.ofList cs)).map fun s => ⟨s, none⟩

def readForm (scope : Scope) (s : Settings) : FlagForm → Except Stop Step
  | .long name value => readLong scope s name value
  | .letters cs => readLetters scope s cs

def readEnd (s : Settings) : List String → Except Stop (Settings × List String)
  | [] => .ok (s, [])
  | word :: _ => .error (.misuse (.unexpectedWord word))

def readFlags (scope : Scope) (s : Settings) : List String → Except Stop (Settings × List String)
  | [] => .ok (s, [])
  | argument :: rest =>
    match Argument.ofText argument with
    | .word _ => .ok (s, argument :: rest)
    | .separator => readEnd s rest
    | .flags form =>
      match readForm scope s form with
      | .error stop => .error stop
      | .ok ⟨s, none⟩ => readFlags scope s rest
      | .ok ⟨s, some flag⟩ =>
        match rest with
        | [] => .error (.misuse (.missingValue flag))
        | text :: rest =>
          if !Argument.isValue text then
            .error (.misuse (.missingValue flag))
          else
            match s.give flag text with
            | .error stop => .error stop
            | .ok s => readFlags scope s rest

structure CheckOptions where
  choke : Option Nat
  format : Report.Format
  root : Path
  config : Option Path
  verbose : Bool
  deriving Repr

namespace CheckOptions

def defaultRoot : Path :=
  ⟨"."⟩

def ofSettings (outer inner : Settings) : CheckOptions where
  choke := inner.choke
  format := inner.format.getD .text
  root := inner.root.getD defaultRoot
  config := inner.config.or outer.config
  verbose := outer.verbose || inner.verbose

end CheckOptions

def checkWord : String :=
  "check"

def helpWord : String :=
  "help"

def readHelp : List String → Stop
  | [] => .help .program
  | [word] =>
    if word = checkWord then
      .help .check
    else if word = helpWord then
      .help .program
    else
      .misuse (.unexpectedWord word)
  | _ :: word :: _ => .misuse (.unexpectedWord word)

def readArguments (arguments : List String) : Except Stop CheckOptions := do
  let (outer, rest) ← readFlags .program .none arguments
  match rest with
  | [] => throw (.misuse .noRequest)
  | word :: rest =>
    if word = helpWord then
      throw (readHelp rest)
    else if word ≠ checkWord then
      throw (.misuse (.unexpectedWord word))
    else
      match ← readFlags .check .none rest with
      | (inner, []) => return .ofSettings outer inner
      | (_, word :: _) => throw (.misuse (.unexpectedWord word))

end PatternLint.Command
