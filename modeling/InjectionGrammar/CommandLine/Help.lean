import InjectionGrammar.CommandLine
import InjectionGrammar.Text.Printed

/-! What the program says about its command line. -/
namespace InjectionGrammar
namespace CommandLine

def programName : String := "generate_grammar"

def versionText : String := programName ++ " 0.1.0\n"

/-- A line of the list of options. -/
structure Row where
  letter : Option Char
  label : String
  help : String

def Setting.row (s : Setting) (letter : Option Char) (help : String) : Row :=
  ⟨letter, s.label, help⟩

def Flag.row (f : Flag) (letter : Option Char) (help : String) : Row :=
  ⟨letter, f.label, help⟩

def rows : List Row := [
  Setting.languages.row (some 'l')
    "Language registry (YAML); defaults to the user registry, then the builtin one",
  Setting.config.row (some 'c') "Generator config (YAML); defaults to the user config",
  Setting.output.row (some 'o') "Where to write the grammar",
  Setting.targetScope.row (some 't') "Host scope to inject into (repeatable)",
  Setting.scopeName.row none "Scope name of the generated grammar",
  Flag.stdout.row none "Print the grammar instead of writing a file",
  Flag.check.row none "Don't write; exit with status 1 if the output file is out of date",
  Flag.help.row (some 'h') "Print help",
  Flag.version.row (some 'V') "Print version"]

/-- The width of the longest label. -/
def labelWidth : Nat :=
  (rows.map (·.label.length)).foldl max 0

/-- The letter or room for one, the label, and the help in a column of its own. -/
def Row.text (r : Row) : String :=
  let letter := match r.letter with
    | some c => String.ofList ['-', c, ',', ' ']
    | none => "    "
  "  " ++ letter ++ r.label ++ String.ofList (List.replicate (labelWidth - r.label.length) ' ') ++
    "  " ++ r.help ++ "\n"

def helpText : String :=
  "Generate a TextMate injection grammar for comment-tagged YAML block scalars\n\n" ++
    "Usage: " ++ programName ++ " [OPTIONS]\n\nOptions:\n" ++ String.join (rows.map Row.text)

/-- What is said of a command line that is not accepted. Its words appear without the effects that
they might have on a terminal. -/
def Rejection.message : Rejection → String
  | unexpectedArgument word => "error: unexpected argument '" ++ printed word ++ "' found"
  | missingValue s =>
    "error: a value is required for '" ++ s.label ++ "' but none was supplied"
  | unexpectedValue value f =>
    "error: unexpected value '" ++ printed value ++ "' for '" ++ f.label ++
      "' found; no more were expected"
  | repeated label => "error: the argument '" ++ label ++ "' cannot be used multiple times"
  | conflict first second =>
    "error: the argument '" ++ first.label ++ "' cannot be used with '" ++ second.label ++ "'"
  | helpWanted => helpText
  | versionWanted => versionText

end CommandLine
end InjectionGrammar
