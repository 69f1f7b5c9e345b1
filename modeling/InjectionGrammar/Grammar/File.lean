import InjectionGrammar.Json.Decoding
import InjectionGrammar.Json.Encoding
import InjectionGrammar.Session

/-! Grammars in files. -/
namespace InjectionGrammar
namespace Grammar

/-- Writes a grammar to a file, over what the file held. Missing directories are created. -/
def write (path : String) (g : Grammar) : Session (Except FileFault Unit) := do
  match ← Files.createParents path with
  | .error f => return .error f
  | .ok () =>
    match ← Files.writeText path g.toText with
    | .error f => return .error f
    | .ok () =>
      Log.report (.grammarWritten path)
      return .ok ()

/-- Whether a file holds exactly a grammar. One that does not exist holds none. -/
def isUpToDate (path : String) (g : Grammar) : Session (Except FileFault Bool) := do
  match ← Files.readText path with
  | .ok text => return .ok (text == g.toText)
  | .error .notFound =>
    Log.report (.grammarMissing path)
    return .ok false
  | .error f => return .error f

/-- Why a file gives no grammar. -/
inductive FileProblem where
  | unreadable (fault : FileFault)
  | unfit (failure : Json.Failure)
  deriving DecidableEq, Repr

/-- The grammar in a file. -/
def ofFile (path : String) : Session (Except FileProblem Grammar) :=
  Files.readAs path .unreadable fun text => (ofText text).mapError .unfit

end Grammar
end InjectionGrammar
