import InjectionGrammar.Language

/-!
Patterns of the generated rules. An alias is escaped before it becomes part of a pattern, so that
it matches itself and nothing else.
-/
namespace InjectionGrammar
namespace Pattern

/-- Characters with a meaning of their own in a pattern. -/
def metacharacters : List Char :=
  ['-', '[', ']', '{', '}', '(', ')', '*', '+', '?', '.', ',', '\\', '^', '$', '|', '#']

def needsEscape (c : Char) : Bool :=
  isBlank c || metacharacters.contains c

def escapeChar (c : Char) : List Char :=
  if needsEscape c then ['\\', c] else [c]

/-- Puts a backslash before each character that needs one. -/
def escape (s : String) : String :=
  String.ofList (s.toList.flatMap escapeChar)

/-- The mark of a literal block, with its indentation and chomping indicators. -/
def blockScalarBegin : String :=
  "(?:(\\|))([1-9])?([-+])?[ \\t]*"

/-- A line that starts at column 0, or a place where the last match did not end. -/
def blockScalarEnd : String :=
  "^(?=\\S)|(?!\\G)"

/-- The first line of the content, its leading spaces captured. -/
def fenceBegin : String :=
  "(?=^([ ]+)(?! ))"

/-- The first line that shows something and lacks the captured spaces. -/
def fenceEnd : String :=
  "^(?!\\1|\\s*$)"

/-- A comment that consists of one of the given aliases. -/
def tagComment (identifiers : List String) : String :=
  "(#)[ \\t]*(" ++ String.intercalate "|" (identifiers.map escape) ++ ")\\n"

end Pattern

/-- The comment that tags a block with a language. -/
def Language.tagPattern (l : Language) : String :=
  Pattern.tagComment l.identifiers

end InjectionGrammar
