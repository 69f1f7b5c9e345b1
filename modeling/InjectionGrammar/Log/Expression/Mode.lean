import InjectionGrammar.Text.Blank

/-! How the text of an expression is understood, and the flags that change it. -/
namespace InjectionGrammar
namespace Log
namespace Expression

structure Mode where
  /-- Whether a letter stands for both of its cases. -/
  ignoresCase : Bool := false
  /-- Whether characters are compared; otherwise bytes are. -/
  byCharacter : Bool := true
  /-- Whether blanks and comments count for nothing. -/
  isSpaced : Bool := false
  deriving DecidableEq, Repr

/-- Drops blanks and comments; a comment goes on to the end of its line. -/
def dropSpace (inComment : Bool) : List Char → List Char
  | [] => []
  | c :: s =>
    if inComment then dropSpace (c ≠ '\n') s
    else if c = '#' then dropSpace true s
    else if isBlank c then dropSpace false s
    else c :: s

/-- The letters of the flags. -/
def flagLetters : List Char := ['i', 'm', 's', 'U', 'u', 'R', 'x']

namespace Mode

/-- The text from what counts next on. -/
def skip (m : Mode) (s : List Char) : List Char :=
  if m.isSpaced then dropSpace false s else s

/-- What counts next behind a dash. A comment there hides only its sign. -/
def peek? (m : Mode) (s : List Char) : Option Char :=
  if m.isSpaced then
    match s.dropWhile isBlank with
    | '#' :: s => (s.dropWhile isBlank).head?
    | s => s.head?
  else s.head?

/-- Sets or clears a flag. Those not kept here change nothing in what an expression may consist
of. -/
def withFlag (m : Mode) (letter : Char) (on : Bool) : Mode :=
  if letter = 'i' then { m with ignoresCase := on }
  else if letter = 'u' then { m with byCharacter := on }
  else if letter = 'x' then { m with isSpaced := on }
  else m

end Mode

/-- What flags apply to. -/
inductive Reach where
  /-- All that follows in the group around them. -/
  | rest
  /-- A group of their own. -/
  | group
  deriving DecidableEq, Repr

/-- Reads flags behind those that have been seen, the last one first. A dash clears the flags behind
it; no sign may stand twice, and none but a flag in front of the end. -/
def readFlags? (seen : List Char) (m : Mode) : List Char → Option (Reach × Mode × List Char)
  | [] => none
  | c :: s =>
    if seen.head? = some '-' && (c = ')' || c = ':') then none
    else if c = ':' then some (.group, m, s)
    else if c = ')' then if seen.isEmpty then none else some (.rest, m, s)
    else if seen.contains c then none
    else if c = '-' then readFlags? ('-' :: seen) m s
    else if flagLetters.contains c then
      readFlags? (c :: seen) (m.withFlag c (!seen.contains '-')) s
    else none

end Expression
end Log
end InjectionGrammar
