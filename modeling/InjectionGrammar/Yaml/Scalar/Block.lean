import InjectionGrammar.Yaml.Mark

/-! Block scalars: indented lines below a header. -/
namespace InjectionGrammar
namespace Yaml

/-- What becomes of the line breaks at the end. -/
inductive Chomping where
  | clip
  | strip
  | keep
  deriving DecidableEq, Repr

/-- What the header of a block scalar says, and the first line below it. -/
structure BlockHeader where
  chomping : Chomping
  increment : Option Nat
  stop : Cursor

def chomping? (c : Char) : Option Chomping :=
  if c = '+' then some .keep
  else if c = '-' then some .strip
  else none

def readChomping (c : Cursor) : Chomping × Cursor :=
  match c.rest with
  | [] => (.clip, c)
  | x :: _ =>
    match chomping? x with
    | some k => (k, c.drop 1)
    | none => (.clip, c)

/-- Reads an indentation indicator, which is not zero. -/
def readIncrement (c : Cursor) : Option (Option Nat × Cursor) :=
  match c.rest with
  | [] => some (none, c)
  | x :: _ =>
    if x = '0' then none
    else if x.isDigit then some (some (x.toNat - 48), c.drop 1)
    else some (none, c)

/-- Goes on to the next line; nothing but blanks and a comment may come before it. -/
def finishLine (c : Cursor) : Option Cursor :=
  let c := c.dropWhile isSpaceOrTab
  let c := if c.rest.head? = some '#' then c.dropWhile fun x => !isBreak x else c
  match c.rest with
  | [] => some c
  | x :: s => if isBreak x then some ⟨c.mark.nextLine, s⟩ else none

/-- Reads the rest of a header: the two indicators in either order. -/
def readHeader (c : Cursor) : Option BlockHeader :=
  match readChomping c with
  | (.clip, c) => do
    let (increment, c) ← readIncrement c
    let (chomping, c) := if increment.isSome then readChomping c else (.clip, c)
    return ⟨chomping, increment, ← finishLine c⟩
  | (chomping, c) => do
    let (increment, c) ← readIncrement c
    return ⟨chomping, increment, ← finishLine c⟩

/-- The blank lines before the first line of text: the largest indentation among them and that
line, the breaks, and the place of the text. Tabs may not indent. -/
def leadingLines (widest : Nat) (breaks : List Char) (m : Mark) :
    List Char → Option (Nat × List Char × Cursor)
  | [] => some (max widest m.column, breaks, ⟨m, []⟩)
  | c :: s =>
    if c = ' ' then leadingLines widest breaks (m.next c) s
    else if c = '\t' then none
    else if isBreak c then leadingLines (max widest m.column) (breaks ++ [c]) m.nextLine s
    else some (max widest m.column, breaks, ⟨m, c :: s⟩)

/-- What lies between two lines of text: the break that ends the first, if that shows, and the
breaks of the blank lines. -/
structure BlockGap where
  first : Option Char
  others : List Char
  deriving DecidableEq, Repr

/-- The text that a gap stands for. In a folded scalar a line feed between two lines that begin
with no blank becomes a space, or is dropped if blank lines follow. -/
def BlockGap.text (g : BlockGap) (folds : Bool) : List Char :=
  if folds ∧ g.first = some '\n' then if g.others.isEmpty then [' '] else g.others
  else g.first.toList ++ g.others

/-- What is left of the gap behind the last line. -/
def BlockGap.chomp (g : BlockGap) : Chomping → List Char
  | .strip => []
  | .clip => g.first.toList
  | .keep => g.first.toList ++ g.others

/-- Puts text before what is still to be read. -/
def consBlock (cs : List Char) (r : Option (List Char × Cursor)) : Option (List Char × Cursor) :=
  r.map fun p => (cs ++ p.1, p.2)

/-- Reads lines of text at the column `indent`. `gap` is what lies before the next line, if the
current one has ended; `blankBefore` says whether the last line of text began with a blank. -/
def readLines (isFolded : Bool) (chomping : Chomping) (indent : Nat) (blankBefore : Bool)
    (gap : Option BlockGap) (m : Mark) : List Char → Option (List Char × Cursor)
  | [] => some (((gap.getD ⟨none, []⟩).chomp chomping), ⟨m, []⟩)
  | c :: s =>
    match gap with
    | none =>
      if isBreak c then
        readLines isFolded chomping indent blankBefore (some ⟨some c, []⟩) m.nextLine s
      else consBlock [c] (readLines isFolded chomping indent blankBefore none (m.next c) s)
    | some g =>
      if c = ' ' ∧ m.column < indent then
        readLines isFolded chomping indent blankBefore (some g) (m.next c) s
      else if c = '\t' ∧ m.column < indent then none
      else if isBreak c then
        readLines isFolded chomping indent blankBefore (some ⟨g.first, g.others ++ [c]⟩)
          m.nextLine s
      else if m.column = indent then
        let blank := isSpaceOrTab c
        consBlock (g.text (isFolded && !blankBefore && !blank) ++ [c])
          (readLines isFolded chomping indent blank none (m.next c) s)
      else some (g.chomp chomping, ⟨m, c :: s⟩)

/-- Reads a block scalar from behind its first indicator; `parent` is the column of the enclosing
block, if there is one. -/
def readBlock (isFolded : Bool) (parent : Option Nat) (c : Cursor) :
    Option (List Char × Cursor) := do
  let header ← readHeader c
  match header.increment with
  | some n =>
    readLines isFolded header.chomping (parent.getD 0 + n) false (some ⟨none, []⟩)
      header.stop.mark header.stop.rest
  | none =>
    let (widest, breaks, c) ← leadingLines 0 [] header.stop.mark header.stop.rest
    let least := (parent.map (· + 1)).getD 0
    readLines isFolded header.chomping (max (max widest least) 1) false (some ⟨none, breaks⟩)
      c.mark c.rest

end Yaml
end InjectionGrammar
