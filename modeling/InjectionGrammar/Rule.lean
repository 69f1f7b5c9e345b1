import InjectionGrammar.OrderedMap

/-! Rules of a grammar. -/
namespace InjectionGrammar

/-- Scopes by number of the capture group that they are assigned to. -/
abbrev Captures := OrderedMap UInt32 String

/-- A rule refers to another one by its target, or spans the text from an opening to a closing
match and holds rules of its own. -/
structure Rule where
  target : Option String := none
  name : Option String := none
  contentName : Option String := none
  opening : Option String := none
  captures : Captures := .empty
  closing : Option String := none
  patterns : List Rule := []

namespace Rule

instance : Inhabited Rule := ⟨{}⟩

def reference (target : String) : Rule where
  target := some target

def span (opening closing : String) : Rule where
  opening := some opening
  closing := some closing

def withName (r : Rule) (name : String) : Rule :=
  { r with name := some name }

def withContentName (r : Rule) (name : String) : Rule :=
  { r with contentName := some name }

/-- Assigns a scope to a group of the opening match, over the one assigned before. -/
def withCapture (r : Rule) (group : UInt32) (scope : String) : Rule :=
  { r with captures := r.captures.insert group scope }

def withPatterns (r : Rule) (patterns : List Rule) : Rule :=
  { r with patterns := patterns }

def capture? (r : Rule) (group : UInt32) : Option String :=
  r.captures.get? group

/-- The targets of the rules directly inside. -/
def targets (r : Rule) : List String :=
  r.patterns.filterMap (·.target)

end Rule
end InjectionGrammar
