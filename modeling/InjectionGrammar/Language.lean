import InjectionGrammar.Text.Blank

/-! Languages that a comment can tag, and the names derived from them. -/
namespace InjectionGrammar

/-- The grammar scopes that highlight a language. A single scope and a list of one are told
apart, as both are ways to write them down. -/
inductive Source where
  | one (scope : String)
  | many (scopes : List String)
  deriving DecidableEq, Repr

namespace Source

def toList : Source → List String
  | one s => [s]
  | many ss => ss

/-- A source without a scope that shows something. -/
def isEmpty (s : Source) : Bool :=
  s.toList.all isBlankText

end Source

/-- A language, the aliases that tag it, and the grammars that highlight it. -/
structure Language where
  name : String
  identifiers : List String
  source : Source
  deriving DecidableEq, Repr

namespace Language

/-- The stem of the keys under which language rules are filed. -/
def repositoryStem : String :=
  "commentTaggedString"

def repositoryKey (l : Language) : String :=
  repositoryStem ++ "-" ++ l.name

/-- The target by which other rules of the same grammar refer to the rule of this language. -/
def repositoryInclude (l : Language) : String :=
  "#" ++ l.repositoryKey

/-- The scope of the embedded text. -/
def contentScope (l : Language) : String :=
  "meta.embedded.block." ++ l.name

/-- The scope of the alias in the tagging comment. -/
def tagScope (l : Language) : String :=
  "comment.tag." ++ l.name

def answersTo (l : Language) (tag : String) : Bool :=
  l.identifiers.contains tag

end Language

/-- What can be wrong with a language in its place in a registry. -/
inductive Flaw where
  | emptyName
  | noIdentifiers (language : String)
  | noSource (language : String)
  | duplicateName (language : String)
  deriving DecidableEq, Repr

/-- The wording in which a registry is refused. -/
def Flaw.message : Flaw → String
  | emptyName => "Language with an empty name"
  | noIdentifiers l => "Language '" ++ l ++ "' has no identifiers"
  | noSource l => "Language '" ++ l ++ "' has no source grammar"
  | duplicateName l => "Language '" ++ l ++ "' is declared more than once"

/-- The wording in which a grammar is not built. -/
def Flaw.assertion : Flaw → String
  | emptyName => "language name must not be empty"
  | noIdentifiers l => "language '" ++ l ++ "' has no identifiers"
  | noSource l => "language '" ++ l ++ "' has no source grammar"
  | duplicateName l => "language '" ++ l ++ "' is declared more than once"

end InjectionGrammar
