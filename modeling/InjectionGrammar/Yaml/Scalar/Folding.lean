import InjectionGrammar.Yaml.Mark

/-! What blanks and line breaks inside of a scalar stand for. -/
namespace InjectionGrammar
namespace Yaml

/-- The blanks and line breaks since the last character that shows. -/
inductive Gap where
  | none
  | blanks (cs : List Char)
  /-- The first break, if it counts, and those after it; blanks around them do not count. -/
  | breaks (first : Option Char) (others : List Char)
  deriving DecidableEq, Repr

namespace Gap

/-- Takes in a blank. -/
def blank (c : Char) : Gap → Gap
  | none => .blanks [c]
  | blanks cs => .blanks (cs ++ [c])
  | breaks first others => .breaks first others

/-- Takes in a line break. -/
def newline (c : Char) : Gap → Gap
  | none | blanks _ => .breaks (some c) []
  | breaks first others => .breaks first (others ++ [c])

/-- The text that a gap stands for. A single line feed becomes a space, the first of several is
dropped. -/
def text : Gap → List Char
  | none => []
  | blanks cs => cs
  | breaks first others =>
    if first = some '\n' then if others.isEmpty then [' '] else others
    else first.toList ++ others

def isBroken : Gap → Bool
  | breaks _ _ => true
  | _ => false

end Gap
end Yaml
end InjectionGrammar
