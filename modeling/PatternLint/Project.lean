import PatternLint.Schedule.Traversal
import PatternLint.Source.Load

/-!
This module puts a check of a project together: a configuration makes a policy, the sources are
loaded under it, and both make the schedule that is run.
-/

namespace PatternLint

def compileNodePattern : PatternCompiler NodePattern :=
  fun text => (NodePattern.parse text).mapError PatternError.message

def checkProject {U P : Type} (find : Matcher U P) (policy : Policy P) (provider : Provider U) :
    Except LoadError (Option Run) := do
  let schedule ← Schedule.ofProject policy provider
  return Run.ofSchedule? find policy.budget schedule

structure Project where
  policy : Policy NodePattern
  sources : Sources
  schedule : Schedule SourceUnit NodePattern

inductive ProjectError where
  | policy (error : PolicyError)
  | load (error : LoadError)
  deriving DecidableEq, Repr

namespace Project

def prepare (tree : FileTree) (root : Path) (c : Config) : Except ProjectError Project := do
  let policy ← (Policy.resolve compileNodePattern tree root c).mapError .policy
  let sources ← (Sources.load tree root policy.ignored).mapError .load
  let schedule ← (Schedule.ofProject policy (sources.provider tree)).mapError .load
  return { policy, sources, schedule }

def run? (p : Project) : Option Run :=
  Run.ofSchedule? SourceUnit.matcher p.policy.budget p.schedule

end Project

end PatternLint
