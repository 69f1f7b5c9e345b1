import InjectionGrammar.Json.Scalar

/-! Passing over values that nothing asks for. Containers may nest to any depth here. -/
namespace InjectionGrammar
namespace Json

inductive Bracket where
  | square
  | curly
  deriving DecidableEq, Repr

namespace Bracket

def closing : Bracket → Char
  | square => ']'
  | curly => '}'

def endProblem : Bracket → Problem
  | square => .endInList
  | curly => .endInObject

def separatorProblem : Bracket → Problem
  | square => .expectedListSeparator
  | curly => .expectedObjectSeparator

end Bracket

/-- Passes over a scalar, or opens a container. -/
def skipStart (s : List Char) : Except Stop (Option Bracket × List Char) :=
  match skipSpace s with
  | [] => stop .endInValue []
  | c :: r =>
    let scalar := Except.map fun rest : List Char => ((none : Option Bracket), rest)
    if c = 'n' then scalar (skipWord ['u', 'l', 'l'] r)
    else if c = 't' then scalar (skipWord ['r', 'u', 'e'] r)
    else if c = 'f' then scalar (skipWord ['a', 'l', 's', 'e'] r)
    else if c = '-' then scalar (skipNumber r)
    else if c.isDigit then scalar (skipNumber (c :: r))
    else if c = '"' then scalar (skipChars r)
    else if c = '[' then .ok (some .square, r)
    else if c = '{' then .ok (some .curly, r)
    else stopAt .expectedValue (c :: r)

/-- Closes the open containers, the innermost first, up to one in which a value follows. Behind a
value it follows after a comma. -/
def skipEnds : List Bracket → Bool → List Char → Except Stop (List Bracket × List Char)
  | [], _, s => .ok ([], s)
  | b :: bs, behindValue, s =>
    match skipSpace s with
    | [] => stop b.endProblem []
    | c :: r =>
      if c = ',' ∧ behindValue then .ok (b :: bs, r)
      else if c = b.closing then skipEnds bs true r
      else if behindValue then stopAt b.separatorProblem (c :: r)
      else .ok (b :: bs, c :: r)

/-- Passes over the colon between a key and its value. -/
def colon (s : List Char) : Except Stop (List Char) :=
  match skipSpace s with
  | [] => stop .endInObject []
  | c :: r => if c = ':' then .ok r else stopAt .expectedColon (c :: r)

/-- Passes over a key and its colon. -/
def skipKey (s : List Char) : Except Stop (List Char) :=
  match skipSpace s with
  | [] => stop .endInObject []
  | c :: r =>
    if c = '"' then do
      let r ← skipChars r
      colon r
    else stopAt .keyNotString (c :: r)

/-- Passes over values up to the end of the given containers. -/
def skipWithin (opened : List Bracket) (s : List Char) : Nat → Except Stop (List Char)
  | 0 => stop .endInValue s
  | fuel + 1 => do
    let (container, s) ← skipStart s
    let (opened, s) ← skipEnds (container.toList ++ opened) container.isNone s
    match opened with
    | [] => .ok s
    | .square :: _ => skipWithin opened s fuel
    | .curly :: _ => do
      let s ← skipKey s
      skipWithin opened s fuel

/-- Passes over a value of any kind. -/
def skipValue (s : List Char) : Except Stop (List Char) :=
  skipWithin [] s (s.length + 1)

end Json
end InjectionGrammar
