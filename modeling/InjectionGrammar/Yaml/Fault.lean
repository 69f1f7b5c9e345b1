import InjectionGrammar.Yaml.Mark
import InjectionGrammar.Yaml.Scalar.Resolution

/-! Why a YAML text could not be read, and where. -/
namespace InjectionGrammar
namespace Yaml

/-- The way from the root of a document to a node. -/
inductive Path where
  | root
  | item (parent : Path) (index : Nat)
  | member (parent : Path) (key : String)
  /-- A member whose key has no text of its own. -/
  | unnamed (parent : Path)
  deriving DecidableEq, Repr

namespace Path

/-- What stands before the name of a member. -/
def stem (text : String) : Path → String
  | root => ""
  | _ => text ++ "."

def message : Path → String
  | root => "."
  | item p i => p.message ++ "[" ++ numeral i ++ "]"
  | member p key => p.stem p.message ++ key
  | unnamed p => p.stem p.message ++ "?"

end Path

inductive Problem where
  | wrongType (found : Found) (expected : String)
  | wrongValue (text : String) (demand : Demand)
  | missingField (field : String)
  | duplicateField (field : String)
  /-- Neither a string nor a list of strings. -/
  | unsuitable (expected : String)
  /-- A local tag on a value whose type shows in its content. -/
  | localTag
  deriving DecidableEq, Repr

def Problem.message : Problem → String
  | wrongType found expected => "invalid type: " ++ found.message ++ ", expected " ++ expected
  | wrongValue text demand =>
    "invalid value: string " ++ quoted text ++ ", expected " ++ demand.message
  | missingField field => "missing field `" ++ field ++ "`"
  | duplicateField field => "duplicate field `" ++ field ++ "`"
  | unsuitable expected => "data did not match any variant of untagged enum " ++ expected
  | localTag => "untagged and internally tagged enums do not support enum input"

inductive Fault where
  /-- A text that is not YAML at all. What is wrong with it is not said. -/
  | notYaml
  | unknownAnchor (m : Mark)
  | severalDocuments
  | tooManyReferences
  | tooDeep (m : Mark)
  /-- A problem with a value; its place is that of the value, or of one around it. -/
  | unfit (problem : Problem) (place : Option (Path × Mark))
  deriving DecidableEq, Repr

namespace Fault

/-- How the message about a value begins. Nothing is said of the root, nor of what is written
like it. -/
def placeStem (path : Path) : String :=
  if path.message = Path.root.message then "" else path.message ++ ": "

/-- What is said of a fault. A fixed text stands for all that can be said of a text that is not
YAML. -/
def message : Fault → String
  | notYaml => "<yaml syntax error>"
  | unknownAnchor m => "unknown anchor" ++ m.message
  | severalDocuments => "deserializing from YAML containing more than one document is not supported"
  | tooManyReferences => "repetition limit exceeded"
  | tooDeep m => "recursion limit exceeded" ++ m.message
  | unfit p none => p.message
  | unfit p (some (path, m)) => placeStem path ++ p.message ++ m.message

/-- Gives a place to a problem that has none yet. -/
def placedAt (path : Path) (m : Mark) : Fault → Fault
  | unfit p none => unfit p (some (path, m))
  | f => f

end Fault
end Yaml
end InjectionGrammar
