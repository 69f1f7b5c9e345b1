import InjectionGrammar.Yaml.Event.Stack
import InjectionGrammar.Yaml.Fault

/-! The first document of a YAML stream, as the list of its nodes with references resolved. -/
namespace InjectionGrammar
namespace Yaml

/-- A scalar, the beginning or the end of a collection, or a reference to a slot. -/
inductive Node where
  /-- Stands for the content of an empty stream. -/
  | nothing
  | reference (slot : Nat)
  | scalar (text : String) (style : Style) (tag : Option String)
  | sequenceStart (tag : Option String)
  | sequenceEnd
  | mappingStart (tag : Option String)
  | mappingEnd
  deriving DecidableEq, Repr

/-- The nodes up to the end of the document or the first fault. -/
structure Document where
  nodes : List (Node × Mark)
  /-- The positions of the nodes that slots refer to; of two for one slot the first counts. -/
  targets : List (Nat × Nat)
  fault : Option Fault
  /-- Whether nothing but the end of the stream follows. -/
  isLast : Bool

namespace Document

/-- The document without nodes. -/
def empty : Document := ⟨[], [], none, false⟩

def push (d : Document) (node : Node) (m : Mark) : Document :=
  { d with nodes := d.nodes ++ [(node, m)] }

/-- Makes a slot refer to the next node. -/
def define (d : Document) (slot : Nat) : Document :=
  { d with targets := (slot, d.nodes.length) :: d.targets }

/-- The anchors that have been met, with their slots, the latest first. A name takes the slot whose
number is that of the names before it, also if it has been met before. -/
abbrev Anchors := List (String × Nat)

def Anchors.define (a : Anchors) (name : String) : Nat × Anchors :=
  (a.length, (name, a.length) :: a.filter (·.1 != name))

/-- Adds a node that may have an anchor. -/
def pushNamed (d : Document) (a : Anchors) (anchor : Option String) (node : Node) (m : Mark) :
    Document × Anchors :=
  match anchor with
  | none => (d.push node m, a)
  | some name =>
    let (slot, a) := a.define name
    ((d.define slot).push node m, a)

/-- Adds nodes to a document as long as its events last. -/
def addEvents (d : Document) (a : Anchors) : List Event → Document
  | [] => { d with fault := some .notYaml }
  | e :: es =>
    let add := fun node =>
      let (d, a) := d.pushNamed a e.properties.anchor node e.mark
      addEvents d a es
    match e.kind with
    | .reference name =>
      match a.lookup name with
      | none => { d with fault := some (.unknownAnchor e.mark) }
      | some slot => addEvents (d.push (.reference slot) e.mark) a es
    | .scalar text style => add (.scalar text style e.properties.tag)
    | .sequenceStart => add (.sequenceStart e.properties.tag)
    | .sequenceEnd => add .sequenceEnd
    | .mappingStart => add (.mappingStart e.properties.tag)
    | .mappingEnd => add .mappingEnd
    | .documentEnd => { d with isLast := es.head?.any (·.kind = .streamEnd) }
    | .streamEnd => { d.push .nothing e.mark with isLast := true }

/-- The first document of a text. -/
def ofText (text : String) : Document :=
  empty.addEvents [] (events text)

end Document
end Yaml
end InjectionGrammar
