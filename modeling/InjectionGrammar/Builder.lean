import InjectionGrammar.Grammar
import InjectionGrammar.Log
import InjectionGrammar.Pattern
import InjectionGrammar.Selector

/-!
Building a grammar from a registry. An outer rule finds block scalars and refers to one rule for
each language, in registry order; the rule of a language finds the comment that tags the block.
-/
namespace InjectionGrammar

/-- The settings of a grammar that its registry does not give. -/
structure Options where
  scopeName : String
  targetScopes : List String
  deriving DecidableEq, Repr

def Options.defaultScopeName : String :=
  "inline.template-tagged-languages"

namespace Language

/-- Bounds the embedded text by the indentation of its first line. -/
def fence (l : Language) : Rule :=
  ((Rule.span Pattern.fenceBegin Pattern.fenceEnd).withName "string.unquoted.block.yaml"
    ).withPatterns (l.source.toList.map Rule.reference)

/-- The rule of a language without flaws. -/
def embedding (l : Language) : Rule :=
  (((((Rule.span l.tagPattern Pattern.blockScalarEnd).withContentName l.contentScope
    ).withCapture 0 "comment.line.number-sign.yaml"
    ).withCapture 1 "punctuation.definition.comment.yaml"
    ).withCapture 2 l.tagScope).withPatterns [l.fence]

/-- The rule of a language, unless it has no name, no alias or no source. -/
def rule (l : Language) : Except Flaw Rule :=
  if l.name.isEmpty then .error .emptyName
  else if l.identifiers.isEmpty then .error (.noIdentifiers l.name)
  else if l.source.isEmpty then .error (.noSource l.name)
  else .ok l.embedding

end Language

namespace Registry

/-- The outer rule. -/
def topLevelPatterns (r : Registry) : List Rule :=
  [((((Rule.span Pattern.blockScalarBegin Pattern.blockScalarEnd
    ).withCapture 1 "keyword.control.flow.block-scalar.literal.yaml"
    ).withCapture 2 "constant.numeric.indentation-indicator.yaml"
    ).withCapture 3 "storage.modifier.chomping-indicator.yaml"
    ).withPatterns (r.languages.map fun l => Rule.reference l.repositoryInclude)]

/-- Files the rules of languages under their keys, which have to be new. -/
def fileRules (repository : OrderedMap String Rule) :
    List Language → Except Flaw (OrderedMap String Rule)
  | [] => .ok repository
  | l :: ls =>
    match l.rule with
    | .error f => .error f
    | .ok rule =>
      if repository.contains l.repositoryKey then .error (.duplicateName l.name)
      else fileRules (repository.insert l.repositoryKey rule) ls

/-- The grammar of a registry; fails at the first language with a flaw. -/
def grammar (r : Registry) (o : Options) : Except Flaw Grammar :=
  match fileRules .empty r.languages with
  | .error f => .error f
  | .ok repository => .ok {
      fileTypes := []
      injectionSelector := Selector.ofScopes o.targetScopes
      patterns := r.topLevelPatterns
      scopeName := o.scopeName
      repository }

/-- What building a grammar reports: every conflict, then the size of the result, if any. -/
def buildEvents (r : Registry) (o : Options) : List Log.Event :=
  r.conflicts.map .tagClaimedTwice ++
    match r.grammar o with
    | .error _ => []
    | .ok g => [.grammarBuilt o.scopeName g.repository.size]

end Registry
end InjectionGrammar
