import InjectionGrammar.Log.Expression.Mode
import InjectionGrammar.Text.Numeral

/-!
Signs: the smallest parts of an expression. Without tables of all scripts, characters can be
compared only one by one: not in both cases, nor by their kind. Bytes can be compared as long as
only whole characters match.
-/
namespace InjectionGrammar
namespace Log
namespace Expression

inductive Sign where
  /-- A character that stands for itself. It may be given as a byte with that number. -/
  | literal (c : Char) (isByte : Bool)
  /-- Any character. -/
  | any
  /-- A character of a common kind, such as a digit, or one that is not. -/
  | kind (isNegated : Bool)
  /-- The begin or the end of a line or of all. -/
  | edge
  /-- The begin or the end of a word. -/
  | wordEdge
  deriving DecidableEq, Repr

/-- Whether a sign may stand outside of sets. -/
def Mode.permits (m : Mode) : Sign → Bool
  | .literal c isByte => if m.byCharacter then !m.ignoresCase else !isByte || c.toNat < 0x80
  | .any => m.byCharacter
  | .kind isNegated => !m.byCharacter && !isNegated
  | .edge => true
  | .wordEdge => !m.byCharacter

/-- Whether a sign may stand in a set. -/
def Mode.permitsInSet (m : Mode) : Sign → Bool
  | .literal c _ => if m.byCharacter then !m.ignoresCase else c.toNat < 0x80
  | .kind isNegated => !m.byCharacter && !isNegated
  | _ => false

/-- The sign that a character stands for behind a backslash, if no digits follow. -/
def escaped? (c : Char) : Option Sign :=
  if c = 'd' ∨ c = 's' ∨ c = 'w' then some (.kind false)
  else if c = 'D' ∨ c = 'S' ∨ c = 'W' then some (.kind true)
  else if c = 'A' ∨ c = 'z' then some .edge
  else if c = 'b' ∨ c = 'B' ∨ c = '<' ∨ c = '>' then some .wordEdge
  else if c = 'a' then some (.literal '\x07' false)
  else if c = 'f' then some (.literal '\x0c' false)
  else if c = 't' then some (.literal '\t' false)
  else if c = 'n' then some (.literal '\n' false)
  else if c = 'r' then some (.literal '\r' false)
  else if c = 'v' then some (.literal '\x0b' false)
  else if c.isAlphanum || 0x80 ≤ c.toNat then none
  else some (.literal c false)

/-- Reads hexadecimal digits of the given count behind a number. -/
def readCode? (m : Mode) : Nat → Nat → List Char → Option (Nat × List Char)
  | 0, n, s => some (n, s)
  | count + 1, n, s =>
    match m.skip s with
    | [] => none
    | c :: s => (hexValue? c).bind fun d => readCode? m count (n * 16 + d) s

/-- Reads a sign from behind its backslash. -/
def readEscape? (m : Mode) : List Char → Option (Sign × List Char)
  | [] => none
  | c :: s =>
    match codeLength? c with
    | none => (escaped? c).map fun sign => (sign, s)
    | some count => do
      let (n, s) ← readCode? m count 0 s
      return (.literal (← charOfCode? n) (c = 'x'), s)

/-- Reads a sign outside of sets. -/
def readSign? (m : Mode) : List Char → Option (Sign × List Char)
  | [] => none
  | c :: s =>
    if c = '\\' then readEscape? m s
    else if c = '.' then some (.any, s)
    else if c = '^' ∨ c = '$' then some (.edge, s)
    else some (.literal c false, s)

/-- Reads a sign in a set, where only a backslash has a meaning of its own. -/
def readSetSign? (m : Mode) : List Char → Option (Sign × List Char)
  | [] => none
  | c :: s => if c = '\\' then readEscape? m s else some (.literal c false, s)

end Expression
end Log
end InjectionGrammar
