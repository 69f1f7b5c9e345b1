import InjectionGrammar.Text.Bytes
import InjectionGrammar.Text.Numeral

/-! Places in a YAML text, and the classes of characters that its syntax tells apart. -/
namespace InjectionGrammar
namespace Yaml

/-- A place in a text, counted from zero: the bytes before it, a line break as one, and lines and
columns in characters. -/
structure Mark where
  index : Nat
  line : Nat
  column : Nat
  deriving DecidableEq, Repr

namespace Mark

def start : Mark := ⟨0, 0, 0⟩

/-- The place behind a character that ends no line. -/
def next (m : Mark) (c : Char) : Mark := ⟨m.index + c.utf8Size, m.line, m.column + 1⟩

/-- The place behind a line break. -/
def nextLine (m : Mark) : Mark := ⟨m.index + 1, m.line + 1, 0⟩

/-- The place behind some characters of one line. -/
def advance (m : Mark) (cs : List Char) : Mark :=
  ⟨m.index + byteLength cs, m.line, m.column + cs.length⟩

/-- The wording that follows a message; the first place of a text goes without saying. -/
def message (m : Mark) : String :=
  if m.line = 0 ∧ m.column = 0 then ""
  else " at line " ++ numeral (m.line + 1) ++ " column " ++ numeral (m.column + 1)

end Mark

/-- A place in a text and what follows there. -/
structure Cursor where
  mark : Mark
  rest : List Char
  deriving DecidableEq, Repr

namespace Cursor

/-- Goes past some characters of one line. -/
def drop (c : Cursor) (n : Nat) : Cursor :=
  ⟨c.mark.advance (c.rest.take n), c.rest.drop n⟩

/-- Goes past all next characters of a class that holds no line breaks. -/
def dropWhile (c : Cursor) (p : Char → Bool) : Cursor :=
  c.drop (c.rest.takeWhile p).length

end Cursor

/-- Line and paragraph separators stay themselves where other line breaks become line feeds. -/
def isSeparator (c : Char) : Bool :=
  c = '\u2028' || c = '\u2029'

/-- The one character between lines, once line breaks are unified. -/
def isBreak (c : Char) : Bool :=
  c = '\n' || isSeparator c

/-- Writes every line break as one character. -/
def unifyBreaks : List Char → List Char
  | [] => []
  | '\r' :: '\n' :: s => '\n' :: unifyBreaks s
  | c :: s => (if c = '\r' ∨ c = '\u0085' then '\n' else c) :: unifyBreaks s

/-- The characters that a text may hold. -/
def isAllowed (c : Char) : Bool :=
  let n := c.toNat
  c = '\t' || c = '\n' || c = '\r' || (0x20 ≤ n && n ≤ 0x7e) || n == 0x85 ||
    (0xa0 ≤ n && n ≤ 0xd7ff) || (0xe000 ≤ n && n ≤ 0xfffd) || 0x10000 ≤ n

def isSpaceOrTab (c : Char) : Bool :=
  c = ' ' || c = '\t'

/-- Whether a text begins with a blank or a line break, or is at its end. -/
def atBlank : List Char → Bool
  | [] => true
  | c :: _ => isSpaceOrTab c || isBreak c

/-- The characters of names. -/
def isWordChar (c : Char) : Bool :=
  c.isAlphanum || c = '-' || c = '_'

def isFlowIndicator (c : Char) : Bool :=
  c = ',' || c = '[' || c = ']' || c = '{' || c = '}'

/-- Whether a mark of the beginning or the end of a document follows. -/
def atDocumentMark (s : List Char) : Bool :=
  match s with
  | a :: b :: c :: r => a = b && b = c && (a = '-' || a = '.') && atBlank r
  | _ => false

end Yaml
end InjectionGrammar
