import InjectionGrammar.Yaml.Token

/-! Tags, anchors and directives. -/
namespace InjectionGrammar
namespace Yaml

/-- Reads the name behind the indicator of an anchor or of a reference to one. -/
def readName (c : Cursor) : Option (String × Cursor) :=
  let name := c.rest.takeWhile isWordChar
  let c := c.dropWhile isWordChar
  let ends := atBlank c.rest ||
    c.rest.head?.any fun x => ['?', ':', ',', ']', '}', '%', '@', '\x60'].contains x
  if !name.isEmpty && ends then some (String.ofList name, c) else none

def isTagChar (verbatim : Bool) (c : Char) : Bool :=
  isWordChar c ||
    [';', '/', '?', ':', '@', '&', '=', '+', '$', '.', '!', '~', '*', '\'', '(', ')'].contains c ||
    (verbatim && [',', '[', ']'].contains c)

/-- The number of bytes of a character after its first byte. -/
def following? (byte : Nat) : Option Nat :=
  if byte < 0x80 then some 0
  else if byte / 32 = 6 then some 1
  else if byte / 16 = 14 then some 2
  else if byte / 8 = 30 then some 3
  else none

/-- Reads the characters of a tag. After a percent sign a byte is given by two digits; `missing`
bytes belong to a character that has begun. Each byte is kept as a character of its own. -/
def readTagChars (verbatim : Bool) (missing : Nat) (m : Mark) :
    List Char → Option (List Char × Cursor)
  | '%' :: h :: l :: s => do
    let byte := (← hexValue? h) * 16 + (← hexValue? l)
    let left ←
      if missing = 0 then following? byte
      else if byte / 64 = 2 then some (missing - 1)
      else none
    let (cs, c) ← readTagChars verbatim left (m.advance ['%', h, l]) s
    return (Char.ofNat byte :: cs, c)
  | s =>
    if missing ≠ 0 ∨ s.head? = some '%' then none
    else
      match s with
      | [] => some ([], ⟨m, []⟩)
      | c :: s =>
        if isTagChar verbatim c then do
          let (cs, d) ← readTagChars verbatim 0 (m.next c) s
          return (c :: cs, d)
        else some ([], ⟨m, c :: s⟩)

/-- The characters of a tag that count. -/
def untilNull (cs : List Char) : List Char :=
  cs.takeWhile (· ≠ '\x00')

/-- Reads the characters of a tag, of which there is at least one. -/
def readTagText (verbatim : Bool) (c : Cursor) : Option (String × Cursor) := do
  let (cs, d) ← readTagChars verbatim 0 c.mark c.rest
  if cs.isEmpty then none else return (String.ofList (untilNull cs), d)

/-- Reads an exclamation mark, the word behind it, and a second mark if there is one. -/
def readHandle (c : Cursor) : Option (List Char × Cursor) :=
  match c.rest with
  | '!' :: s =>
    let word := s.takeWhile isWordChar
    let d := (c.drop 1).dropWhile isWordChar
    if d.rest.head? = some '!' then some ('!' :: (word ++ ['!']), d.drop 1)
    else some ('!' :: word, d)
  | _ => none

/-- Reads a tag: handle, suffix, and the next place. A tag without suffix has no handle either. -/
def readTag (c : Cursor) : Option (String × String × Cursor) :=
  match c.rest with
  | _ :: '<' :: _ => do
    let (suffix, d) ← readTagText true (c.drop 2)
    if d.rest.head? = some '>' then return ("", suffix, d.drop 1) else none
  | _ => do
    let (handle, d) ← readHandle c
    if 1 < handle.length ∧ handle.getLast? = some '!' then
      let (suffix, d) ← readTagText false d
      return (String.ofList handle, suffix, d)
    else
      let (cs, d) ← readTagChars false 0 d.mark d.rest
      let suffix := handle.drop 1 ++ untilNull cs
      if suffix.isEmpty then return ("", "!", d) else return ("!", String.ofList suffix, d)

/-- Reads a number of a version. -/
def readVersionNumber (c : Cursor) : Option (Nat × Cursor) :=
  let digits := c.rest.takeWhile Char.isDigit
  if digits.isEmpty ∨ 9 < digits.length then none
  else some (digits.foldl (fun n d => n * 10 + (d.toNat - 48)) 0, c.dropWhile Char.isDigit)

/-- Reads a directive from behind its indicator, up to the end of its content. -/
def readDirective (c : Cursor) : Option (Token.Kind × Cursor) :=
  let name := c.rest.takeWhile isWordChar
  let c := c.dropWhile isWordChar
  if !atBlank c.rest then none
  else if name = ['Y', 'A', 'M', 'L'] then do
    let (major, c) ← readVersionNumber (c.dropWhile isSpaceOrTab)
    if c.rest.head? ≠ some '.' then none
    let (minor, c) ← readVersionNumber (c.drop 1)
    return (.versionDirective major minor, c)
  else if name = ['T', 'A', 'G'] then do
    let (handle, c) ← readHandle (c.dropWhile isSpaceOrTab)
    if 1 < handle.length ∧ handle.getLast? ≠ some '!' then none
    if !c.rest.head?.any isSpaceOrTab then none
    let (stem, c) ← readTagText true (c.dropWhile isSpaceOrTab)
    if !atBlank c.rest then none
    return (.tagDirective (String.ofList handle) stem, c)
  else none

end Yaml
end InjectionGrammar
