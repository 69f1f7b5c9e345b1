import InjectionGrammar.Yaml.Token

/-! The events of a YAML stream: the beginnings and ends of its nodes in textual order. -/
namespace InjectionGrammar
namespace Yaml

/-- What may stand before the content of a node. -/
structure Properties where
  anchor : Option String := none
  tag : Option String := none
  deriving DecidableEq, Repr

def Properties.isEmpty (p : Properties) : Bool :=
  p.anchor.isNone && p.tag.isNone

inductive Event.Kind where
  | reference (name : String)
  | scalar (text : String) (style : Style)
  | sequenceStart
  | sequenceEnd
  | mappingStart
  | mappingEnd
  | documentEnd
  | streamEnd
  deriving DecidableEq, Repr

structure Event where
  kind : Event.Kind
  mark : Mark
  properties : Properties := {}
  deriving DecidableEq, Repr

namespace Event

/-- A scalar that the text leaves out. -/
def absent (m : Mark) : Event :=
  ⟨.scalar "" .plain, m, {}⟩

end Event
end Yaml
end InjectionGrammar
