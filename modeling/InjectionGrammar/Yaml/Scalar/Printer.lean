import InjectionGrammar.Yaml.Scalar.Resolution

/-!
Writing strings as YAML scalars that read back as the same strings. The plainest style that a
string allows is taken; only double quotes take every string.
-/
namespace InjectionGrammar
namespace Yaml
namespace Scalar

/-- All line breaks, unified or not. -/
def isAnyBreak (c : Char) : Bool :=
  c = '\r' || c = '\u0085' || isBreak c

/-- The characters that may be written as they are. -/
def isPrintable (c : Char) : Bool :=
  let n := c.toNat
  c = '\n' || (0x20 ≤ n && n ≤ 0x7e) || (0xa0 ≤ n && n ≤ 0xd7ff) ||
    (0xe000 ≤ n && n ≤ 0xfffd && n != 0xfeff) || 0x10000 ≤ n

/-- Whether a character of one class is followed by one of another. -/
def hasPair (p q : Char → Bool) : List Char → Bool
  | a :: b :: s => (p a && q b) || hasPair p q (b :: s)
  | _ => false

def isSpace (c : Char) : Bool := c = ' '

def isBlankOrBreak (c : Char) : Bool := isSpaceOrTab c || isAnyBreak c

/-- Whether a text, at its end or behind this place, goes on without a blank. -/
def goesOn : List Char → Bool
  | [] => false
  | c :: _ => !isBlankOrBreak c

/-- The characters that begin something other than a plain scalar. -/
def indicators : List Char :=
  ['#', ',', '[', ']', '{', '}', '&', '*', '!', '|', '>', '\'', '"', '%', '@', '\x60']

/-- Whether a text would be misread if it stood without quotes. -/
def hasIndicator (s : List Char) : Bool :=
  let atStart := match s with
    | [] => false
    | c :: r => indicators.contains c || (['?', ':', '-'].contains c && !goesOn r)
  atStart || ['-', '-', '-'].isPrefixOf s || ['.', '.', '.'].isPrefixOf s ||
    hasPair (· = ':') isBlankOrBreak s || s.getLast? = some ':' ||
    hasPair isBlankOrBreak (· = '#') s

/-- What no style but double quotes can hold. -/
def needsEscape (s : List Char) : Bool :=
  s.any (!isPrintable ·) || hasPair isSpace isAnyBreak s

def allowsLiteral (s : List Char) : Bool :=
  !needsEscape s && !s.getLast?.any isSpace

def allowsSingleQuotes (s : List Char) : Bool :=
  !needsEscape s && !hasPair isAnyBreak isSpace s

def allowsPlain (s : List Char) : Bool :=
  let isEdge := fun c : Char => isSpace c || isAnyBreak c
  !needsEscape s && !s.any isAnyBreak && !s.head?.any isEdge && !s.getLast?.any isEdge &&
    !hasIndicator s

/-- Whether a text reads as a string without quotes. -/
def readsAsString (s : String) : Bool :=
  resolvePlain s = .string s && !hasLeadingZero s.toList

/-- The style in which a string is written. -/
def styleOf (s : String) : Style :=
  let cs := s.toList
  if cs.contains '\n' then if allowsLiteral cs then .literal else .doubleQuoted
  else if readsAsString s && allowsPlain cs then .plain
  else if allowsSingleQuotes cs then .singleQuoted
  else .doubleQuoted

def upperHexDigit (n : Nat) : Char :=
  if n < 10 then Char.ofNat (48 + n) else Char.ofNat (55 + n)

/-- A number in the given count of hexadecimal digits. -/
def hexDigits : Nat → Nat → List Char
  | 0, _ => []
  | count + 1, n => hexDigits count (n / 16) ++ [upperHexDigit (n % 16)]

/-- The letter that stands for a character after a backslash. -/
def escapeLetter? (c : Char) : Option Char :=
  if c = '\x00' then some '0'
  else if c = '\x07' then some 'a'
  else if c = '\x08' then some 'b'
  else if c = '\t' then some 't'
  else if c = '\n' then some 'n'
  else if c = '\x0b' then some 'v'
  else if c = '\x0c' then some 'f'
  else if c = '\r' then some 'r'
  else if c = '\x1b' then some 'e'
  else if c = '"' ∨ c = '\\' then some c
  else if c = '\u0085' then some 'N'
  else if c = '\u2028' then some 'L'
  else if c = '\u2029' then some 'P'
  else none

/-- A character between double quotes. -/
def escapeChar (c : Char) : List Char :=
  match escapeLetter? c with
  | some l => ['\\', l]
  | none =>
    let n := c.toNat
    if isPrintable c then [c]
    else if n ≤ 0xff then '\\' :: 'x' :: hexDigits 2 n
    else if n ≤ 0xffff then '\\' :: 'u' :: hexDigits 4 n
    else '\\' :: 'U' :: hexDigits 8 n

def indentation : List Char := [' ', ' ']

/-- Characters between single quotes. The lines after the first are indented. -/
def singleQuotedChars (atLineStart : Bool) : List Char → List Char
  | [] => if atLineStart then indentation else []
  | c :: s =>
    if isAnyBreak c then c :: singleQuotedChars true s
    else
      (if atLineStart then indentation else []) ++
        (if c = '\'' then ['\'', '\''] else [c]) ++ singleQuotedChars false s

/-- The lines of a literal scalar. Those that show something are indented. -/
def literalChars (atLineStart : Bool) : List Char → List Char
  | [] => []
  | c :: s =>
    if isAnyBreak c then c :: literalChars true s
    else (if atLineStart then indentation else []) ++ c :: literalChars false s

/-- The indentation and chomping indicators of a literal scalar. -/
def literalHints (s : List Char) : List Char :=
  let indent := if s.head?.any fun c => isSpace c || isAnyBreak c then ['2'] else []
  let chomping := match s.reverse with
    | [] => ['-']
    | [c] => if isAnyBreak c then ['+'] else ['-']
    | c :: d :: _ => if !isAnyBreak c then ['-'] else if isAnyBreak d then ['+'] else []
  indent ++ chomping

/-- A string as the rest of a line, with the line break. -/
def print (s : String) : List Char :=
  let cs := s.toList
  match styleOf s with
  | .literal | .folded =>
    '|' :: (literalHints cs ++ '\n' :: literalChars true cs) ++
      if cs.getLast?.any isAnyBreak then [] else ['\n']
  | .plain => cs ++ ['\n']
  | .singleQuoted => '\'' :: (singleQuotedChars false cs ++ ['\'', '\n'])
  | .doubleQuoted => '"' :: (cs.flatMap escapeChar ++ ['"', '\n'])

end Scalar
end Yaml
end InjectionGrammar
