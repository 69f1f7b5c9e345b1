import InjectionGrammar.Yaml.Mark

/-! The tokens of YAML. -/
namespace InjectionGrammar
namespace Yaml

/-- How a scalar is written. -/
inductive Style where
  | plain
  | singleQuoted
  | doubleQuoted
  | literal
  | folded
  deriving DecidableEq, Repr

inductive Token.Kind where
  | versionDirective (major minor : Nat)
  | tagDirective (handle : String) (stem : String)
  | documentStart
  | documentEnd
  | streamEnd
  | blockSequenceStart
  | blockMappingStart
  | blockEnd
  | flowSequenceStart
  | flowSequenceEnd
  | flowMappingStart
  | flowMappingEnd
  | blockEntry
  | flowEntry
  | key
  | value
  | anchor (name : String)
  | reference (name : String)
  | tag (handle suffix : String)
  | scalar (text : String) (style : Style)
  deriving DecidableEq, Repr

structure Token where
  kind : Token.Kind
  start : Mark
  stop : Mark
  deriving DecidableEq, Repr

namespace Token

/-- A token that the text does not show. -/
def virtual (kind : Kind) (m : Mark) : Token := ⟨kind, m, m⟩

end Token
end Yaml
end InjectionGrammar
