import InjectionGrammar.CommandLine.Help
import InjectionGrammar.Config.Loading
import InjectionGrammar.Grammar.File
import InjectionGrammar.Log.Filter
import InjectionGrammar.Plan
import InjectionGrammar.Registry.Loading

/-!
A run of the program: from the words of the command line to files, output and exit code. The
registry is validated when it is read, so that building the grammar does not fail.
-/
namespace InjectionGrammar
namespace Program

/-- What a run leaves besides files and log. -/
structure Report where
  exitCode : Nat
  output : String := ""
  errors : String := ""
  deriving DecidableEq, Repr

/-- Why a run fails. -/
inductive Failure where
  | unusableConfig (problem : Config.FileProblem)
  | noDestination
  | unusableRegistry (fault : Registry.Fault)
  | unreadable (path : String) (fault : FileFault)
  | unwritable (path : String) (fault : FileFault)
  deriving DecidableEq, Repr

/-- What the program tried to do, if that is worth saying, and what went wrong. -/
def Failure.parts : Failure → Option String × String
  | unusableConfig p => (none, p.message)
  | noDestination => (none, Plan.noDestination)
  | unusableRegistry f => (some "Failed to load language registry", f.message)
  | unreadable path f => (some ("Failed to read " ++ path), f.message)
  | unwritable path f => (some ("Failed to write grammar to " ++ path), f.message)

/-- Indents the lines of a text. -/
def indentLines (s : String) : String :=
  String.ofList (List.replicate 4 ' ' ++
    s.toList.flatMap fun c => if c = '\n' then '\n' :: List.replicate 4 ' ' else [c])

def Failure.message (f : Failure) : String :=
  match f.parts with
  | (none, m) => "Error: " ++ m ++ "\n"
  | (some aim, m) => "Error: " ++ aim ++ "\n\nCaused by:\n" ++ indentLines m ++ "\n"

namespace Report

def success : Report := { exitCode := 0 }

def ofFailure (f : Failure) : Report := { exitCode := 1, errors := f.message }

/-- A command line that is not accepted, or asks for help. -/
def ofRejection (r : CommandLine.Rejection) : Report :=
  match r with
  | .helpWanted | .versionWanted => { exitCode := 0, output := r.message }
  | r => { exitCode := 2, errors := r.message ++ "\n" }

def outdated (path : String) : Report where
  exitCode := 1
  errors := path ++ " is out of date; rerun " ++ CommandLine.programName ++ " to regenerate it\n"

/-- The end of a run that builds from a registry with a flaw. -/
def broken (f : Flaw) : Report := { exitCode := 101, errors := f.assertion ++ "\n" }

end Report

/-- The configuration of a run. -/
def configFor (a : CommandLine.Arguments) (e : Environment) :
    Session (Except Config.FileProblem Config) :=
  match a.config with
  | some path => Config.ofFile path
  | none => do return .ok (← Config.load e)

/-- Brings a grammar to its destination, or compares it. -/
def deliver (p : Plan) (g : Grammar) : Session Report :=
  match p.destination with
  | .stdout => return { exitCode := 0, output := g.toText }
  | .file path =>
    if p.check then do
      match ← g.isUpToDate path with
      | .error f => return .ofFailure (.unreadable path f)
      | .ok true => return .success
      | .ok false => return .outdated path
    else do
      match ← g.write path with
      | .error f => return .ofFailure (.unwritable path f)
      | .ok () => return .success

/-- Carries out a plan. -/
def execute (e : Environment) (p : Plan) : Session Report := do
  match ← Registry.load e p.languages with
  | .error f => return .ofFailure (.unusableRegistry f)
  | .ok r => do
    Log.reportAll (r.buildEvents p.options)
    match r.grammar p.options with
    | .error f => return .broken f
    | .ok g => deliver p g

/-- A run with accepted arguments. -/
def runArguments (e : Environment) (a : CommandLine.Arguments) : Session Report := do
  match ← configFor a e with
  | .error p => return .ofFailure (.unusableConfig p)
  | .ok c =>
    match a.plan? c with
    | none => return .ofFailure .noDestination
    | some p => execute e p

/-- A run with the words of a command line. -/
def run (e : Environment) (words : List String) : Session Report :=
  match CommandLine.parse words with
  | .error r => return .ofRejection r
  | .ok a => runArguments e a

end Program
end InjectionGrammar
