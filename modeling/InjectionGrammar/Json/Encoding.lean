import InjectionGrammar.Json
import InjectionGrammar.Grammar
import InjectionGrammar.Language
import InjectionGrammar.Text.Numeral

/-! Grammars, rules and languages as JSON values. -/
namespace InjectionGrammar
open Json

/-- A member that is left out where there is no value. -/
def optionalMember (key : String) : Option String → List (String × Json)
  | none => []
  | some s => [(key, .string s)]

def Captures.toJson (cs : Captures) : Json :=
  .object (cs.entries.map fun e => (numeral e.1.toNat, .object [("name", .string e.2)]))

mutual

def Rule.toJson : Rule → Json
  | ⟨target, name, contentName, opening, captures, closing, patterns⟩ =>
    .object (optionalMember "include" target ++ optionalMember "name" name ++
      optionalMember "contentName" contentName ++ optionalMember "begin" opening ++
      (if captures.isEmpty then [] else [("beginCaptures", captures.toJson)]) ++
      optionalMember "end" closing ++ Rule.patternsMember patterns)

def Rule.patternsMember : List Rule → List (String × Json)
  | [] => []
  | r :: rs => [("patterns", .array (r.toJson :: Rule.listToJson rs))]

def Rule.listToJson : List Rule → List Json
  | [] => []
  | r :: rs => r.toJson :: Rule.listToJson rs

end

def Grammar.toJson (g : Grammar) : Json :=
  .object [("fileTypes", .array (g.fileTypes.map .string)),
    ("injectionSelector", .string g.injectionSelector),
    ("patterns", .array (Rule.listToJson g.patterns)),
    ("scopeName", .string g.scopeName),
    ("repository", .object (g.repository.entries.map fun e => (e.1, e.2.toJson)))]

/-- The text of the file that holds a grammar. -/
def Grammar.toText (g : Grammar) : String :=
  g.toJson.toFile

/-- The text of a single rule. -/
def Rule.toText (r : Rule) : String :=
  r.toJson.toCompact

def Source.toJson : Source → Json
  | .one s => .string s
  | .many ss => .array (ss.map .string)

def Language.toJson (l : Language) : Json :=
  .object [("name", .string l.name), ("identifiers", .array (l.identifiers.map .string)),
    ("source", l.source.toJson)]

end InjectionGrammar
