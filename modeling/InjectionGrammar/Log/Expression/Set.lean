import InjectionGrammar.Log.Expression.Sign

/-! Sets of characters between brackets: single signs, ranges, named kinds, and sets in them. -/
namespace InjectionGrammar
namespace Log
namespace Expression

/-- The depth of things side by side: two or more of them lie one layer deeper than each would
alone. -/
def sideBySide : List Nat → Nat
  | [] => 0
  | [d] => d
  | ds => 1 + ds.foldl max 0

/-- What has been read of a set. -/
structure Members where
  /-- The depth of what stands in front of the last operator. -/
  operand : Option Nat := none
  /-- The depths of the members behind it, the last one first. -/
  depths : List Nat := []
  /-- Whether all of it are dashes, which at the begin stand for themselves. -/
  isOpening : Bool := true
  deriving DecidableEq, Repr

namespace Members

def depth (ms : Members) : Nat :=
  match ms.operand with
  | none => sideBySide ms.depths
  | some d => 1 + max d (sideBySide ms.depths)

def add (ms : Members) (depth : Nat) : Members :=
  { ms with depths := depth :: ms.depths, isOpening := false }

/-- Whether a character in this place stands for itself without a backslash, although it has a
meaning elsewhere. -/
def takes (ms : Members) (c : Char) : Bool :=
  ms.isOpening && (c = '-' || c = ']' && ms.depths.isEmpty)

/-- Adds a character that stands for itself only at the begin. -/
def addOpening (ms : Members) (c : Char) : Members :=
  { ms.add 0 with isOpening := c = '-' }

/-- Begins what stands behind an operator. -/
def afterOperator (ms : Members) : Members :=
  { operand := some ms.depth, isOpening := false }

end Members

/-- Characters that form an operator on sets if they are doubled. -/
def isOperator (c : Char) : Bool :=
  c = '&' || c = '-' || c = '~'

/-- The names of kinds of characters. -/
def kindNames : List String :=
  ["alnum", "alpha", "ascii", "blank", "cntrl", "digit", "graph", "lower", "print", "punct",
    "space", "upper", "word", "xdigit"]

/-- Reads a named kind between colons, from behind its bracket, and whether it is negated. -/
def readKind? : List Char → Option (Bool × List Char)
  | ':' :: s =>
    let isNegated := s.head? = some '^'
    let s := if isNegated then s.tail else s
    match s.dropWhile (· ≠ ':') with
    | ':' :: ']' :: rest =>
      if kindNames.contains (String.ofList (s.takeWhile (· ≠ ':'))) then some (isNegated, rest)
      else none
    | _ => none
  | _ => none

/-- Whether a named kind may stand in a set. -/
def Mode.permitsKind (m : Mode) (isNegated : Bool) : Bool :=
  if m.byCharacter then !m.ignoresCase else !isNegated

/-- Reads the begin of a set behind its bracket. The complement of a set of bytes would match parts
of characters. -/
def openSet? (m : Mode) (s : List Char) : Option (List Char) :=
  match m.skip s with
  | '^' :: s => if m.byCharacter then some s else none
  | s => some s

/-- Reads a sign or a range of them. A dash in front of the closing bracket or of another dash makes
no range. -/
def readRange? (m : Mode) (s : List Char) : Option (List Char) := do
  let (first, s) ← readSetSign? m s
  if !m.permitsInSet first then none
  match m.skip s with
  | '-' :: r =>
    if m.peek? r = some ']' || m.peek? r = some '-' then return '-' :: r
    let (last, r) ← readSetSign? m (m.skip r)
    if !m.permitsInSet last then none
    match first, last with
    | .literal a _, .literal b _ => if a ≤ b then return r else none
    | _, _ => none
  | s => return s

/-- Reads the rest of a set; gives its depth and what follows. -/
def readSet? : Nat → Mode → Members → List Char → Option (Nat × List Char)
  | 0, _, _, _ => none
  | fuel + 1, m, ms, s =>
    match m.skip s with
    | [] => none
    | c :: s =>
      if ms.takes c then
        if m.permitsInSet (.literal c false) then readSet? fuel m (ms.addOpening c) s else none
      else if c = ']' then some (ms.depth, s)
      else if c = '[' then
        match readKind? s with
        | some (isNegated, s) =>
          if m.permitsKind isNegated then readSet? fuel m (ms.add 0) s else none
        | none => do
          let (depth, s) ← readSet? fuel m {} (← openSet? m s)
          readSet? fuel m (ms.add (1 + depth)) s
      else if isOperator c && s.head? = some c then readSet? fuel m ms.afterOperator s.tail
      else do
        readSet? fuel m (ms.add 0) (← readRange? m (c :: s))

end Expression
end Log
end InjectionGrammar
