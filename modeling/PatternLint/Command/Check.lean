import PatternLint.Command.Arguments
import PatternLint.Config.Source
import PatternLint.Project

/-!
This module carries out the command: what it prints and with which status it ends, as a function of
its arguments and of the files that are there.
-/

namespace PatternLint.Command

structure Surroundings where
  tree : FileTree
  here : Path
  userDirectory : Option Path
  isTerminal : Bool

inductive Failure where
  | root (path : Path) (error : IoError)
  | config (source : ConfigSource) (error : ConfigError)
  | project (error : ProjectError)
  | noRoom
  deriving DecidableEq, Repr

def configMessage : ConfigError → String
  | .io path e => unreadableMessage path e
  | .notDocument => "Failed to parse config: TOML parse error"
  | .fault f => s!"Failed to parse config: {f.message}"

namespace Failure

def message : Failure → String
  | root path e => s!"Failed to resolve project root: {path.shown}: {e.message}"
  | config source e => s!"Failed to load config: {source.text}: {configMessage e}"
  | project (.policy e) => e.message
  | project (.load e) => e.message
  | noRoom => "capacity overflow"

def status : Failure → Nat
  | noRoom => 101
  | _ => 1

end Failure

def check (s : Surroundings) (o : CheckOptions) : Except Failure (Path × Outcome) := do
  let root ← (s.tree.canonicalPath (s.here.join o.root)).mapError (Failure.root o.root)
  let source := ConfigSource.find s.tree s.here root o.config s.userDirectory
  let config ← (source.load s.tree s.here).mapError (Failure.config source)
  let config := { config with choke := o.choke.or config.choke }
  let project ← (Project.prepare s.tree root config).mapError Failure.project
  let some run := project.run? | throw .noRoom
  return (root, run.outcome)

structure Reply where
  status : Nat
  output : String
  complaint : Option String
  deriving DecidableEq, Repr

def versionText : String :=
  "patvet 0.1.0\n"

def helpLines : Scope → List String
  | .program => [
    "Pattern-driven linter for Rust projects",
    "",
    "Usage: patvet [OPTIONS] <COMMAND>",
    "",
    "Commands:",
    "  check  Run the configured checkers over a project",
    "  help   Print this message or the help of the given subcommand(s)",
    "",
    "Options:",
    "  -v, --verbose          Enable verbose output",
    "  -c, --config <CONFIG>  Path to configuration file",
    "  -h, --help             Print help",
    "  -V, --version          Print version"]
  | .check => [
    "Run the configured checkers over a project",
    "",
    "Usage: patvet check [OPTIONS]",
    "",
    "Options:",
    "      --choke <CHOKE>    Stop after this many diagnostics (overrides `choke` in the config)",
    "  -v, --verbose          Enable verbose output",
    "  -c, --config <CONFIG>  Path to configuration file",
    "  -f, --format <FORMAT>  Output format [default: text] [possible values: text, json]",
    "      --root <ROOT>      Project root (default: current directory) [default: .]",
    "  -h, --help             Print help"]

def helpText (scope : Scope) : String :=
  String.join ((helpLines scope).map (· ++ "\n"))

namespace Reply

def ofStop : Stop → Reply
  | .misuse m => ⟨2, "", some ("error: " ++ m.message)⟩
  | .help scope => ⟨0, helpText scope, none⟩
  | .version => ⟨0, versionText, none⟩

def ofCheck (s : Surroundings) (o : CheckOptions) : Reply :=
  match check s o with
  | .error e => ⟨e.status, "", some ("Error: " ++ e.message)⟩
  | .ok (root, outcome) =>
    ⟨outcome.exitCode, Report.render root o.format s.isTerminal outcome.diagnostics, none⟩

def ofArguments (s : Surroundings) (arguments : List String) : Reply :=
  match readArguments arguments with
  | .error stop => ofStop stop
  | .ok options => ofCheck s options

end Reply

end PatternLint.Command
