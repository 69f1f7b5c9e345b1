import InjectionGrammar.Environment
import InjectionGrammar.Registry.Builtin
import InjectionGrammar.Registry.Reading
import InjectionGrammar.Session

/-! Registries in files. -/
namespace InjectionGrammar
namespace Registry

/-- The registry in a file. -/
def ofFile (path : String) : Session (Except Fault Registry) :=
  Files.readAs path (.unreadable path) ofText

/-- The registry that is asked for, else that of the user, else the builtin one. -/
def load (e : Environment) (path : Option String) : Session (Except Fault Registry) := do
  match path with
  | some path =>
    Log.report (.registryRequested path)
    ofFile path
  | none =>
    match ← Files.present? e.languagesFile with
    | some path =>
      Log.report (.userRegistryFound path)
      ofFile path
    | none =>
      Log.report .builtinRegistryUsed
      return .ok builtin

end Registry
end InjectionGrammar
