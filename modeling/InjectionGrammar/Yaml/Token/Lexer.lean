import InjectionGrammar.Yaml.Scalar.Block
import InjectionGrammar.Yaml.Scalar.Plain
import InjectionGrammar.Yaml.Scalar.Quoted
import InjectionGrammar.Yaml.Token.Tag

/-!
Splitting a YAML text into tokens. Whether a token is a key shows only when its colon comes; until
then the tokens from its place on are not settled. A text with an error still yields the tokens
that were settled before it.
-/
namespace InjectionGrammar
namespace Yaml

/-- A place where a key may have begun. In a required place nothing else may have. -/
structure PendingKey where
  position : Nat
  mark : Mark
  required : Bool
  deriving DecidableEq, Repr

/-- Keys do not reach into another line, nor over more than 1024 bytes. -/
def PendingKey.isStale (k : PendingKey) (m : Mark) : Bool :=
  k.mark.line < m.line || k.mark.index + 1024 < m.index

/-- The text still to be read, the tokens before it, and what decides how it is read. -/
structure Lexer where
  cursor : Cursor
  tokens : List Token
  /-- The columns of the open blocks, the innermost first. -/
  columns : List Nat
  key : Option PendingKey
  /-- The pending keys outside of the open flow collections, the innermost first. -/
  outerKeys : List (Option PendingKey)
  keyAllowed : Bool
  ended : Bool

namespace Lexer

def ofChars (s : List Char) : Lexer :=
  ⟨⟨.start, s⟩, [], [], none, [], true, false⟩

def inFlow (l : Lexer) : Bool :=
  !l.outerKeys.isEmpty

/-- The tokens that nothing can be inserted before. -/
def settled (l : Lexer) : List Token :=
  (l.key :: l.outerKeys).foldr (fun k ts => match k with
    | none => ts
    | some k => ts.take k.position) l.tokens

/-- Adds a token that ends at the given place, and goes on there. -/
def push (l : Lexer) (kind : Token.Kind) (stop : Cursor) : Lexer :=
  { l with cursor := stop, tokens := l.tokens ++ [⟨kind, l.cursor.mark, stop.mark⟩] }

/-- Inserts a token before those from a position on. -/
def insertAt (l : Lexer) (position : Nat) (t : Token) : Lexer :=
  { l with tokens := l.tokens.take position ++ t :: l.tokens.drop position }

/-- Opens a block at a column right of the current one. In a flow collection there are no blocks. -/
def openBlock (l : Lexer) (position : Nat) (kind : Token.Kind) (m : Mark) : Lexer :=
  if !l.inFlow && l.columns.head?.all (· < m.column) then
    { l.insertAt position (.virtual kind m) with columns := m.column :: l.columns }
  else l

/-- Closes the blocks right of a column, or all of them. -/
def closeBlocks (l : Lexer) (column : Option Nat) : Lexer :=
  if l.inFlow then l
  else
    let isRight := fun k : Nat => column.all (· < k)
    { l with
      tokens := l.tokens ++
        (l.columns.takeWhile isRight).map fun _ => .virtual .blockEnd l.cursor.mark
      columns := l.columns.dropWhile isRight }

/-- Gives up the pending key. -/
def dropKey (l : Lexer) : Option Lexer :=
  if l.key.any (·.required) then none else some { l with key := none }

/-- Notes that a key may begin here. -/
def saveKey (l : Lexer) : Option Lexer := do
  if !l.keyAllowed then return l
  let l ← l.dropKey
  let required := !l.inFlow && l.columns.head? == some l.cursor.mark.column
  return { l with key := some ⟨l.tokens.length, l.cursor.mark, required⟩ }

/-- Gives up the pending keys that have become stale. -/
def dropStale (l : Lexer) : Option Lexer :=
  let stale := fun k : PendingKey => k.isStale l.cursor.mark
  if (l.key :: l.outerKeys).any fun k => k.any fun k => stale k && k.required then none
  else
    some { l with
      key := l.key.filter (!stale ·)
      outerKeys := l.outerKeys.map (·.filter (!stale ·)) }

/-- Passes over blanks, comments and line breaks. In block context a key may begin on the next
line. Tabs are no blanks where a block may begin; a byte order mark may begin any line. -/
def skipBlanks (inFlow keyAllowed inComment : Bool) (m : Mark) : List Char → Bool × Cursor
  | [] => (keyAllowed, ⟨m, []⟩)
  | c :: s =>
    if isBreak c then skipBlanks inFlow (keyAllowed || !inFlow) false m.nextLine s
    else if inComment then skipBlanks inFlow keyAllowed true (m.next c) s
    else if c = '#' then skipBlanks inFlow keyAllowed true (m.next c) s
    else if c = ' ' ∨ (c = '\t' ∧ (inFlow ∨ !keyAllowed)) ∨ (c = '\ufeff' ∧ m.column = 0) then
      skipBlanks inFlow keyAllowed false (m.next c) s
    else (keyAllowed, ⟨m, c :: s⟩)

def skip (l : Lexer) : Lexer :=
  let (keyAllowed, cursor) :=
    skipBlanks l.inFlow l.keyAllowed false l.cursor.mark l.cursor.rest
  { l with keyAllowed, cursor }

def setKeyAllowed (l : Lexer) (b : Bool) : Lexer :=
  { l with keyAllowed := b }

/-- Adds a token of the given length. -/
def pushShort (l : Lexer) (kind : Token.Kind) (length : Nat) : Lexer :=
  l.push kind (l.cursor.drop length)

def readStreamEnd (l : Lexer) : Option Lexer := do
  let m := l.cursor.mark
  let l := if m.column = 0 then l else { l with cursor := ⟨m.nextLine, []⟩ }
  let l ← (l.closeBlocks none).dropKey
  return { (l.setKeyAllowed false).pushShort .streamEnd 0 with ended := true }

def readDirectiveLine (l : Lexer) : Option Lexer := do
  let l ← (l.closeBlocks none).dropKey
  let (kind, stop) ← readDirective (l.cursor.drop 1)
  let l := (l.setKeyAllowed false).push kind stop
  return { l with cursor := ← finishLine stop }

def readDocumentMark (l : Lexer) (kind : Token.Kind) : Option Lexer := do
  let l ← (l.closeBlocks none).dropKey
  return (l.setKeyAllowed false).pushShort kind 3

def readFlowStart (l : Lexer) (kind : Token.Kind) : Option Lexer := do
  let l ← l.saveKey
  let l := { l with outerKeys := l.key :: l.outerKeys, key := none }
  return (l.setKeyAllowed true).pushShort kind 1

def readFlowEnd (l : Lexer) (kind : Token.Kind) : Option Lexer := do
  let l ← l.dropKey
  let l := match l.outerKeys with
    | [] => l
    | k :: ks => { l with key := k, outerKeys := ks }
  return (l.setKeyAllowed false).pushShort kind 1

def readFlowEntry (l : Lexer) : Option Lexer := do
  let l ← l.dropKey
  return (l.setKeyAllowed true).pushShort .flowEntry 1

/-- Opens a block at this place, unless this is a flow collection. -/
def openHere (l : Lexer) (kind : Token.Kind) : Option Lexer :=
  if l.inFlow then some l
  else if l.keyAllowed then some (l.openBlock l.tokens.length kind l.cursor.mark)
  else none

def readBlockEntry (l : Lexer) : Option Lexer := do
  let l ← l.openHere .blockSequenceStart
  let l ← l.dropKey
  return (l.setKeyAllowed true).pushShort .blockEntry 1

def readKey (l : Lexer) : Option Lexer := do
  let l ← l.openHere .blockMappingStart
  let l ← l.dropKey
  return (l.setKeyAllowed !l.inFlow).pushShort .key 1

/-- Reads the colon behind a key. -/
def readValue (l : Lexer) : Option Lexer :=
  match l.key with
  | some k =>
    let l := l.insertAt k.position (.virtual .key k.mark)
    let l := { l.openBlock k.position .blockMappingStart k.mark with key := none }
    some ((l.setKeyAllowed false).pushShort .value 1)
  | none => do
    let l ← l.openHere .blockMappingStart
    return (l.setKeyAllowed !l.inFlow).pushShort .value 1

def readAnchor (l : Lexer) (kind : String → Token.Kind) : Option Lexer := do
  let l ← l.saveKey
  let (name, stop) ← readName (l.cursor.drop 1)
  return (l.setKeyAllowed false).push (kind name) stop

def readTagToken (l : Lexer) : Option Lexer := do
  let l ← l.saveKey
  let (handle, suffix, stop) ← readTag l.cursor
  if atBlank stop.rest || (l.inFlow && stop.rest.head? == some ',') then
    return (l.setKeyAllowed false).push (.tag handle suffix) stop
  else none

def readBlockToken (l : Lexer) (isFolded : Bool) : Option Lexer := do
  let l ← l.dropKey
  let (text, stop) ← readBlock isFolded l.columns.head? (l.cursor.drop 1)
  let style : Style := if isFolded then .folded else .literal
  return (l.setKeyAllowed true).push (.scalar (String.ofList text) style) stop

def readQuoted (l : Lexer) (style : Style) : Option Lexer := do
  let l ← l.saveKey
  let c := l.cursor.drop 1
  let (text, stop) ← match style with
    | .singleQuoted => readSingleQuoted .none c.mark c.rest
    | _ => readDoubleQuoted .none 0 0 c.mark c.rest
  return (l.setKeyAllowed false).push (.scalar (String.ofList text) style) stop

def readPlainToken (l : Lexer) : Option Lexer := do
  let l ← l.saveKey
  let least := (l.columns.head?.map (· + 1)).getD 0
  let plain ← readPlain l.inFlow least .none l.cursor.mark l.cursor.rest
  return (l.setKeyAllowed plain.broken).push (.scalar (String.ofList plain.text) .plain) plain.stop

/-- The characters that no scalar without quotes begins with. -/
def isIndicator (c : Char) : Bool :=
  ['-', '?', ':', ',', '[', ']', '{', '}', '#', '&', '*', '!', '|', '>', '\'', '"', '%', '@', '\x60'
    ].contains c

def startsPlain (inFlow : Bool) (c : Char) (s : List Char) : Bool :=
  !(isSpaceOrTab c || isIndicator c) || (c = '-' && !atBlank s) ||
    (!inFlow && (c = '?' || c = ':') && !atBlank s)

/-- Reads the token at this place. -/
def readToken (l : Lexer) : Option Lexer :=
  match l.cursor.rest with
  | [] => l.readStreamEnd
  | c :: s =>
    let lineStart := l.cursor.mark.column = 0
    if lineStart ∧ c = '%' then l.readDirectiveLine
    else if lineStart ∧ atDocumentMark (c :: s) then
      l.readDocumentMark (if c = '-' then .documentStart else .documentEnd)
    else if c = '[' then l.readFlowStart .flowSequenceStart
    else if c = '{' then l.readFlowStart .flowMappingStart
    else if c = ']' then l.readFlowEnd .flowSequenceEnd
    else if c = '}' then l.readFlowEnd .flowMappingEnd
    else if c = ',' then l.readFlowEntry
    else if c = '-' ∧ atBlank s then l.readBlockEntry
    else if c = '?' ∧ (l.inFlow ∨ atBlank s) then l.readKey
    else if c = ':' ∧ (l.inFlow ∨ atBlank s) then l.readValue
    else if c = '*' then l.readAnchor .reference
    else if c = '&' then l.readAnchor .anchor
    else if c = '!' then l.readTagToken
    else if c = '|' ∧ !l.inFlow then l.readBlockToken false
    else if c = '>' ∧ !l.inFlow then l.readBlockToken true
    else if c = '\'' then l.readQuoted .singleQuoted
    else if c = '"' then l.readQuoted .doubleQuoted
    else if startsPlain l.inFlow c s then l.readPlainToken
    else none

/-- Goes on to the next token and reads it. -/
def step (l : Lexer) : Option Lexer := do
  let l ← l.skip.dropStale
  let l ← (l.closeBlocks (some l.cursor.mark.column)).readToken
  l.dropStale

/-- Reads all tokens, and says whether they reach the end of the text. Each step but the last
takes away a character. Where the text is cut off nothing can be said about its last characters. -/
def run (isWhole : Bool) (l : Lexer) : Nat → List Token × Bool
  | 0 => (l.settled, false)
  | steps + 1 =>
    match l.step with
    | none => (l.settled, false)
    | some next =>
      if !isWhole && (next.cursor.rest.drop 3).isEmpty then (l.settled, false)
      else if next.ended then (next.tokens, true)
      else run isWhole next steps

end Lexer

/-- The bytes of a portion of a text. -/
def portion : Nat := 16384

/-- The portions of a text before the first that holds a character it may not hold, and whether
there is no such. Portions are filled up with whole characters; `filled` has those of the first one
in reverse, and `room` is what is left in it. -/
def readable (filled : List Char) (room : Nat) : List Char → List Char × Bool
  | [] => (filled.reverse, true)
  | c :: s =>
    if !isAllowed c then ([], false)
    else if c.utf8Size ≤ room then readable (c :: filled) (room - c.utf8Size) s
    else
      let (rest, isWhole) := readable [c] (portion - c.utf8Size) s
      (filled.reverse ++ rest, isWhole)

/-- The tokens of a text, and whether they reach its end. -/
def tokens (text : String) : List Token × Bool :=
  let (s, isWhole) := readable [] portion text.toList
  let s := unifyBreaks s
  (Lexer.ofChars s).run isWhole (s.length + 1)

end Yaml
end InjectionGrammar
