import InjectionGrammar.Rule

/-! Injection grammars. -/
namespace InjectionGrammar

structure Grammar where
  fileTypes : List String
  injectionSelector : String
  patterns : List Rule
  scopeName : String
  /-- Rules that others refer to, by key. -/
  repository : OrderedMap String Rule

namespace Grammar

def rule? (g : Grammar) (key : String) : Option Rule :=
  g.repository.get? key

end Grammar
end InjectionGrammar
