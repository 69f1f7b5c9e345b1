import InjectionGrammar.Text.Numeral
import InjectionGrammar.Yaml.Scalar.Folding

/-! Quoted scalars. -/
namespace InjectionGrammar
namespace Yaml

/-- The character that a letter stands for after a backslash. -/
def unescape? (c : Char) : Option Char :=
  if c = '0' then some '\x00'
  else if c = 'a' then some '\x07'
  else if c = 'b' then some '\x08'
  else if c = 't' ∨ c = '\t' then some '\t'
  else if c = 'n' then some '\n'
  else if c = 'v' then some '\x0b'
  else if c = 'f' then some '\x0c'
  else if c = 'r' then some '\r'
  else if c = 'e' then some '\x1b'
  else if c = ' ' ∨ c = '"' ∨ c = '/' ∨ c = '\\' then some c
  else if c = 'N' then some '\u0085'
  else if c = '_' then some '\u00a0'
  else if c = 'L' then some '\u2028'
  else if c = 'P' then some '\u2029'
  else none

/-- Puts text before what is still to be read. -/
def consText (cs : List Char) (r : Option (List Char × Cursor)) : Option (List Char × Cursor) :=
  r.map fun p => (cs ++ p.1, p.2)

/-- Reads a scalar between single quotes, from behind the first. A quote inside is written twice. -/
def readSingleQuoted (gap : Gap) (m : Mark) : List Char → Option (List Char × Cursor)
  | [] => none
  | c :: s =>
    if isSpaceOrTab c then readSingleQuoted (gap.blank c) (m.next c) s
    else if isBreak c then readSingleQuoted (gap.newline c) m.nextLine s
    else if m.column = 0 ∧ atDocumentMark (c :: s) then none
    else if c = '\'' then
      match s with
      | [] => some (gap.text, ⟨m.next c, []⟩)
      | d :: r =>
        if d = '\'' then
          consText (gap.text ++ ['\'']) (readSingleQuoted .none ((m.next c).next d) r)
        else some (gap.text, ⟨m.next c, d :: r⟩)
    else consText (gap.text ++ [c]) (readSingleQuoted .none (m.next c) s)

/-- Reads a scalar between double quotes, from behind the first. With digits to come, they are part
of the code `code` of a character. -/
def readDoubleQuoted (gap : Gap) (digits code : Nat) (m : Mark) :
    List Char → Option (List Char × Cursor)
  | [] => none
  | c :: s =>
    match digits with
    | left + 1 =>
      match hexValue? c with
      | none => none
      | some d =>
        if left = 0 then
          match charOfCode? (code * 16 + d) with
          | none => none
          | some x => consText [x] (readDoubleQuoted .none 0 0 (m.next c) s)
        else readDoubleQuoted .none left (code * 16 + d) (m.next c) s
    | 0 =>
      if isSpaceOrTab c then readDoubleQuoted (gap.blank c) 0 0 (m.next c) s
      else if isBreak c then readDoubleQuoted (gap.newline c) 0 0 m.nextLine s
      else if m.column = 0 ∧ atDocumentMark (c :: s) then none
      else if c = '"' then some (gap.text, ⟨m.next c, s⟩)
      else if c = '\\' then
        match s with
        | [] => none
        | e :: r =>
          if isBreak e then
            consText gap.text (readDoubleQuoted (.breaks none []) 0 0 (m.next c).nextLine r)
          else
            match unescape? e, codeLength? e with
            | some x, _ =>
              consText (gap.text ++ [x]) (readDoubleQuoted .none 0 0 ((m.next c).next e) r)
            | none, some n => consText gap.text (readDoubleQuoted .none n 0 ((m.next c).next e) r)
            | none, none => none
      else consText (gap.text ++ [c]) (readDoubleQuoted .none 0 0 (m.next c) s)

end Yaml
end InjectionGrammar
