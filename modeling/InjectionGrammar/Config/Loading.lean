import InjectionGrammar.Config
import InjectionGrammar.Environment
import InjectionGrammar.Session

/-! Configurations in files. A file that is asked for has to be one; the file of a user may fail. -/
namespace InjectionGrammar
namespace Config

/-- Why a file gives no configuration. -/
inductive FileProblem where
  | unreadable (path : String) (fault : FileFault)
  | unfit (path : String) (fault : Fault)
  deriving DecidableEq, Repr

def FileProblem.message : FileProblem → String
  | unreadable path f => "Failed to read config at " ++ path ++ ": " ++ f.message
  | unfit path f => "Failed to parse config at " ++ path ++ ": " ++ f.message

/-- The configuration in a file. -/
def ofFile (path : String) : Session (Except FileProblem Config) :=
  Files.readAs path (.unreadable path) fun text => (ofText text).mapError (.unfit path)

/-- The configuration of a user; the defaults where there is none that can be used. -/
def load (e : Environment) : Session Config := do
  match e.configFile with
  | none =>
    Log.report .configDirectoryMissing
    return {}
  | some path =>
    if ← Files.contain path then
      match ← ofFile path with
      | .ok c =>
        Log.report (.configLoaded path)
        return c
      | .error p =>
        Log.report (.configRejected p.message)
        return {}
    else
      Log.report (.configMissing path)
      return {}

end Config
end InjectionGrammar
