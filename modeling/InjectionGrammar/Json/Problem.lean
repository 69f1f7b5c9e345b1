import InjectionGrammar.Text.Bytes
import InjectionGrammar.Text.Numeral
import InjectionGrammar.Text.Quoted

/-! Why a JSON text could not be read, and where. -/
namespace InjectionGrammar
namespace Json

/-- What stands in the place of an expected value. -/
inductive Found where
  | null
  | boolean (b : Bool)
  | integer (n : Int)
  | decimal (text : String)
  | string (s : String)
  | array
  | object
  deriving DecidableEq, Repr

def Found.message : Found → String
  | null => "null"
  | boolean b => "boolean `" ++ (if b then "true" else "false") ++ "`"
  | integer n => "integer `" ++ signedNumeral n ++ "`"
  | decimal text => "floating point `" ++ text ++ "`"
  | string s => "string " ++ quoted s
  | array => "sequence"
  | object => "map"

inductive Problem where
  | endInValue
  | endInObject
  | endInList
  | endInString
  | expectedColon
  | expectedListSeparator
  | expectedObjectSeparator
  | expectedWord
  | expectedValue
  | expectedQuote
  | invalidEscape
  | invalidNumber
  | numberOutOfRange
  | controlCharacter
  | keyNotString
  | keyNotNumber
  | loneSurrogate
  | brokenSurrogatePair
  | trailingComma
  | trailingCharacters
  | tooDeep
  | wrongType (found : Found) (expected : String)
  | wrongValue (found : Found) (expected : String)
  | wrongLength (length : Nat) (expected : String)
  | missingField (field : String)
  | duplicateField (field : String)
  deriving DecidableEq, Repr

namespace Problem

def message : Problem → String
  | endInValue => "EOF while parsing a value"
  | endInObject => "EOF while parsing an object"
  | endInList => "EOF while parsing a list"
  | endInString => "EOF while parsing a string"
  | expectedColon => "expected `:`"
  | expectedListSeparator => "expected `,` or `]`"
  | expectedObjectSeparator => "expected `,` or `\x7d`"
  | expectedWord => "expected ident"
  | expectedValue => "expected value"
  | expectedQuote => "expected `\"`"
  | invalidEscape => "invalid escape"
  | invalidNumber => "invalid number"
  | numberOutOfRange => "number out of range"
  | controlCharacter => "control character (\\u0000-\\u001F) found while parsing a string"
  | keyNotString => "key must be a string"
  | keyNotNumber => "invalid value: expected key to be a number in quotes"
  | loneSurrogate => "lone leading surrogate in hex escape"
  | brokenSurrogatePair => "unexpected end of hex escape"
  | trailingComma => "trailing comma"
  | trailingCharacters => "trailing characters"
  | tooDeep => "recursion limit exceeded"
  | wrongType found expected => "invalid type: " ++ found.message ++ ", expected " ++ expected
  | wrongValue found expected => "invalid value: " ++ found.message ++ ", expected " ++ expected
  | wrongLength n expected => "invalid length " ++ numeral n ++ ", expected " ++ expected
  | missingField field => "missing field `" ++ field ++ "`"
  | duplicateField field => "duplicate field `" ++ field ++ "`"

/-- Whether the text ended too soon. -/
def isEnd : Problem → Bool
  | endInValue | endInObject | endInList | endInString => true
  | _ => false

end Problem

/-- A line, and the number of bytes before a place on it. -/
structure Location where
  line : Nat
  column : Nat
  deriving DecidableEq, Repr

namespace Location

def start : Location := ⟨1, 0⟩

/-- Goes on by a number of bytes, but not beyond the end of the text. -/
def advance (l : Location) : Nat → List Char → Location
  | _, [] => l
  | n, c :: cs =>
    if n = 0 then l
    else if c = '\n' then advance ⟨l.line + 1, 0⟩ (n - 1) cs
    else if c.utf8Size ≤ n then advance ⟨l.line, l.column + c.utf8Size⟩ (n - c.utf8Size) cs
    else ⟨l.line, l.column + n⟩

/-- The place of the given number of bytes after the beginning of the rest of a text. -/
def of (text rest : List Char) (bytes : Nat) : Location :=
  let before := text.take (text.length - rest.length)
  (start.advance (byteLength before) before).advance bytes rest

end Location

/-- A problem met some bytes into the rest of a text. -/
structure Stop where
  problem : Problem
  rest : List Char
  bytes : Nat

/-- A problem and its place in the whole text. -/
structure Failure where
  problem : Problem
  location : Location
  deriving DecidableEq, Repr

def Failure.message (f : Failure) : String :=
  f.problem.message ++ " at line " ++ numeral f.location.line ++ " column " ++
    numeral f.location.column

/-- Reads something from the front of a text and leaves the rest. -/
abbrev Reader (α : Type) := List Char → Except Stop (α × List Char)

/-- Fails before the next character. -/
def stop {α : Type} (p : Problem) (rest : List Char) : Except Stop α :=
  .error ⟨p, rest, 0⟩

/-- Fails with the next character as the last one that counts. -/
def stopAt {α : Type} (p : Problem) (rest : List Char) : Except Stop α :=
  .error ⟨p, rest, 1⟩

def isSpace (c : Char) : Bool :=
  c = ' ' || c = '\n' || c = '\t' || c = '\r'

/-- Drops blanks between tokens. -/
def skipSpace (s : List Char) : List Char :=
  s.dropWhile isSpace

/-- Reads a whole text, up to blanks at its end. -/
def Reader.run {α : Type} (read : Reader α) (text : String) : Except Failure α :=
  let s := text.toList
  let outcome : Except Stop α := do
    let (a, rest) ← read s
    match skipSpace rest with
    | [] => .ok a
    | c :: cs => stopAt .trailingCharacters (c :: cs)
  outcome.mapError fun e => ⟨e.problem, Location.of s e.rest e.bytes⟩

end Json
end InjectionGrammar
