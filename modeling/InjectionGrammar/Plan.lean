import InjectionGrammar.CommandLine
import InjectionGrammar.Config

/-! What a run is to do: the command line first, then the configuration. -/
namespace InjectionGrammar

inductive Destination where
  | stdout
  | file (path : String)
  deriving DecidableEq, Repr

structure Plan where
  /-- The file of the registry, if one is asked for. -/
  languages : Option String
  options : Options
  destination : Destination
  /-- Whether the destination is compared instead of written. -/
  check : Bool
  deriving DecidableEq, Repr

namespace CommandLine.Arguments

/-- The place of the grammar: printed if that is asked for, else in the file that is named first. -/
def destination? (a : Arguments) (c : Config) : Option Destination :=
  if a.stdout then some .stdout else (a.output.or c.output).map .file

/-- The plan of a run, unless it has no place for the grammar. -/
def plan? (a : Arguments) (c : Config) : Option Plan :=
  (a.destination? c).map fun destination => {
    languages := a.languages
    options := {
      scopeName := a.scopeName.getD c.scopeName
      targetScopes := if a.targetScopes.isEmpty then c.targetScopes else a.targetScopes }
    destination
    check := a.check }

end CommandLine.Arguments

/-- What is said where a grammar has no place. -/
def Plan.noDestination : String :=
  "No output path: pass --output, --stdout, or set `output` in the config"

end InjectionGrammar
