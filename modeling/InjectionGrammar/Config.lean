import InjectionGrammar.Builder
import InjectionGrammar.Yaml.Reader

/-! Settings that a user keeps in a file. -/
namespace InjectionGrammar
open Yaml

structure Config where
  scopeName : String := Options.defaultScopeName
  targetScopes : List String := Selector.defaultScopes
  /-- Where a grammar is written unless the command line says so. -/
  output : Option String := none
  deriving DecidableEq, Repr

namespace Config

def options (c : Config) : Options :=
  ⟨c.scopeName, c.targetScopes⟩

def layout : Layout Config where
  title := "struct GeneratorConfig"
  optional := true
  initial := {}
  fields := [
    ⟨"scope_name", (readString "a string").map fun s c => { c with scopeName := s }⟩,
    ⟨"target_scopes", (readList (depthLimit - 1) (readString "a string")).map fun ss c =>
      { c with targetScopes := ss }⟩,
    ⟨"output", (readOptional "path string").map fun s c => { c with output := s }⟩]

/-- Why a text is no configuration. -/
inductive Fault where
  | unfit (fault : Yaml.Fault)
  | noTargetScopes
  deriving DecidableEq, Repr

def Fault.message : Fault → String
  | unfit f => f.message
  | noTargetScopes => "target_scopes must not be empty"

/-- The configuration that a text describes. Settings that it leaves out have their defaults. -/
def ofText (text : String) : Except Fault Config := do
  let c ← ((layout.read depthLimit).run text).mapError .unfit
  if c.targetScopes.isEmpty then .error .noTargetScopes else return c

end Config
end InjectionGrammar
