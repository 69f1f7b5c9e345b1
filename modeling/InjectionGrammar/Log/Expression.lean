import InjectionGrammar.Log.Expression.Set
import InjectionGrammar.Text.Alphanumeric

/-!
Expressions to which the values of a field are compared. An expression is judged only by its form:
whether it has a meaning, and how deep its parts lie in one another.
-/
namespace InjectionGrammar
namespace Log
namespace Expression

/-- How deep the parts of an expression may lie in one another. -/
def mostDepth : Nat := 250

/-- What has been read between two brackets of a group. -/
structure Level where
  mode : Mode := {}
  /-- The names of groups in the whole expression so far. -/
  names : List (List Char) := []
  /-- The depths of the finished branches, the last one first. -/
  branches : List Nat := []
  /-- The depths of the items of the branch, the last one first. -/
  items : List Nat := []
  /-- Whether the last item can be repeated. -/
  isRepeatable : Bool := false
  deriving DecidableEq, Repr

namespace Level

def depth (l : Level) : Nat :=
  sideBySide (sideBySide l.items :: l.branches)

def add (l : Level) (depth : Nat) : Level :=
  { l with items := depth :: l.items, isRepeatable := true }

/-- Adds flags for all that follows. -/
def addFlags (l : Level) (mode : Mode) : Level :=
  { l with mode, items := 0 :: l.items, isRepeatable := false }

def nextBranch (l : Level) : Level :=
  { l with branches := sideBySide l.items :: l.branches, items := [], isRepeatable := false }

/-- Repeats the last item. -/
def repeated? (l : Level) : Option Level :=
  match l.items with
  | d :: ds => if l.isRepeatable then some { l with items := (1 + d) :: ds } else none
  | [] => none

/-- Adds a group that has been read. -/
def addGroup (l inner : Level) : Level :=
  { l.add (1 + inner.depth) with names := inner.names }

end Level

/-- Whether a character says how often the item in front of it may be repeated. -/
def isRepetition (c : Char) : Bool :=
  c = '*' || c = '+' || c = '?'

def isGroupName : List Char → Bool
  | [] => false
  | c :: s =>
    (c = '_' || isLetter c) &&
      s.all fun c => c = '_' || c = '.' || c = '[' || c = ']' || isAlphanumeric c

/-- Reads the name of a group, which no other group may have. -/
def readGroupName? (names : List (List Char)) (s : List Char) : Option (List Char × List Char) :=
  let name := s.takeWhile (· ≠ '>')
  match s.dropWhile (· ≠ '>') with
  | [] => none
  | _ :: rest => if isGroupName name && !names.contains name then some (name, rest) else none

/-- Reads the begin of a group behind its bracket, or flags for the level around. Gives the level
that follows there. -/
def openGroup? (l : Level) (s : List Char) : Option (Reach × Level × List Char) :=
  match l.mode.skip s with
  | '?' :: 'P' :: '<' :: s | '?' :: '<' :: s => do
    let (name, s) ← readGroupName? l.names s
    return (.group, { mode := l.mode, names := name :: l.names }, s)
  | '?' :: s => do
    let (reach, mode, s) ← readFlags? [] l.mode s
    return (reach, if reach = .group then { mode, names := l.names } else l.addFlags mode, s)
  | s => some (.group, { mode := l.mode, names := l.names }, s)

/-- Reads a level up to the bracket that closes it, or to the end. A brace would demand a number of
repetitions, and a value of a field cannot hold its counterpart. -/
def readLevel? : Nat → Level → List Char → Option (Level × List Char)
  | 0, _, _ => none
  | fuel + 1, l, s =>
    match l.mode.skip s with
    | [] => some (l, [])
    | c :: s =>
      if c = ')' then some (l, c :: s)
      else if c = '\x7b' then none
      else if c = '|' then readLevel? fuel l.nextBranch s
      else if isRepetition c then do
        readLevel? fuel (← l.repeated?) (if s.head? = some '?' then s.tail else s)
      else if c = '[' then do
        let (depth, s) ← readSet? fuel l.mode {} (← openSet? l.mode s)
        readLevel? fuel (l.add (1 + depth)) s
      else if c = '(' then do
        match ← openGroup? l s with
        | (.rest, l, s) => readLevel? fuel l s
        | (.group, inner, s) =>
          match ← readLevel? fuel inner s with
          | (inner, _ :: s) => readLevel? fuel (l.addGroup inner) s
          | (_, []) => none
      else do
        let (sign, s) ← readSign? l.mode (c :: s)
        if l.mode.permits sign then readLevel? fuel (l.add 0) s else none

/-- Whether a text is an expression that values can be compared to. -/
def isMeaningful (s : List Char) : Bool :=
  match readLevel? (s.length + 1) {} s with
  | some (l, []) => l.depth ≤ mostDepth
  | _ => false

end Expression
end Log
end InjectionGrammar
