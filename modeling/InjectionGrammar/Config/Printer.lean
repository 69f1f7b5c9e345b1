import InjectionGrammar.Config
import InjectionGrammar.Yaml.Scalar.Printer

/-! Configurations as YAML. -/
namespace InjectionGrammar
namespace Config

/-- A setting on a line of its own, or more if it is long. -/
def setting (key : String) (value : String) : List Char :=
  key.toList ++ ':' :: ' ' :: Yaml.Scalar.print value

/-- A list setting, one item after the other. -/
def listSetting (key : String) (values : List String) : List Char :=
  key.toList ++
    if values.isEmpty then ": []\n".toList
    else ':' :: '\n' :: values.flatMap fun v => '-' :: ' ' :: Yaml.Scalar.print v

/-- The text of a configuration file. Where no output is set it is left out. -/
def toText (c : Config) : String :=
  String.ofList (setting "scope_name" c.scopeName ++ listSetting "target_scopes" c.targetScopes ++
    match c.output with
    | none => []
    | some path => setting "output" path)

end Config
end InjectionGrammar
