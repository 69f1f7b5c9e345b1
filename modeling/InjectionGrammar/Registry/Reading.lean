import InjectionGrammar.FileTree.Fault
import InjectionGrammar.Registry
import InjectionGrammar.Yaml.Reader

/-! Reading registries from YAML. What is read is validated as well. -/
namespace InjectionGrammar
open Yaml

/-- The scope that a content stands for. -/
def Yaml.Content.string? : Content → Option String
  | .string s => some s
  | _ => none

def Source.ofContent? : Content → Option Source
  | .string s => some (.one s)
  | .list cs => (cs.mapM Content.string?).map .many
  | .other => none

/-- Reads a string or a list of strings. -/
def readSource (levels : Nat) : Reader Source := fun d path p => do
  let (c, p) ← readContent levels d path p
  match Source.ofContent? c with
  | some s => .ok (s, p)
  | none => unplaced (.unsuitable "SourceRef")

/-- The source that a text consists of. What follows the first document is noticed before what it
holds. -/
def Source.ofText (text : String) : Except Yaml.Fault Source := do
  let c ← (readContent depthLimit).run text
  match Source.ofContent? c with
  | some s => .ok s
  | none => unplaced (.unsuitable "SourceRef")

def languageLayout (levels : Nat) : Layout Language where
  title := "struct LanguageSpec"
  optional := false
  initial := ⟨"", [], .many []⟩
  fields := [
    ⟨"name", (readString "a string").map fun s l => { l with name := s }⟩,
    ⟨"identifiers", (readList levels (readString "a string")).map fun ss l =>
      { l with identifiers := ss }⟩,
    ⟨"source", (readSource levels).map fun s l => { l with source := s }⟩]

def registryLayout : Layout Registry where
  title := "struct RegistryFile"
  optional := false
  initial := ⟨[]⟩
  fields := [
    ⟨"languages",
      (readList (depthLimit - 1) ((languageLayout (depthLimit - 3)).read (depthLimit - 2))).map
        fun ls _ => ⟨ls⟩⟩]

namespace Registry

/-- Why a text or a file gives no registry. -/
inductive Fault where
  | unreadable (path : String) (fault : FileFault)
  | unfit (fault : Yaml.Fault)
  | flawed (flaw : Flaw)
  deriving DecidableEq, Repr

def Fault.message : Fault → String
  | unreadable path f => "IO error: " ++ path ++ ": " ++ f.message
  | unfit f => "Parse error: " ++ f.message
  | flawed f => f.message

/-- The registry that a text describes, if it is valid. -/
def ofText (text : String) : Except Fault Registry := do
  let r ← ((registryLayout.read depthLimit).run text).mapError .unfit
  r.validate.mapError .flawed
  return r

end Registry
end InjectionGrammar
