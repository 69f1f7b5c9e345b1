/-!
What shows of a text in a place that obeys no control characters: neither they show nor the
sequences that they begin. Tabs and line breaks are kept.
-/
namespace InjectionGrammar

/-- What the next character is part of. -/
inductive Control where
  | text
  /-- Behind an escape character. -/
  | escape
  /-- Behind an escape character and a blank or a mark such as `(`. -/
  | command
  /-- Behind an escape character and a bracket: parameters up to a letter. -/
  | sequence
  /-- A title or the like, up to a bell. -/
  | title
  /-- Behind an escape character and `P`. -/
  | device
  /-- Parameters of a device, up to the character behind which its string begins. -/
  | parameters
  /-- Marks behind the parameters of a device. -/
  | marks
  /-- A string, up to a terminator. -/
  | string
  deriving DecidableEq, Repr

def isLayout (c : Char) : Bool :=
  c = '\t' || c = '\n' || c = '\x0c' || c = '\r'

def isControl (c : Char) : Bool :=
  c < ' ' || c = '\x7f'

/-- Whether the byte that terminates a string is among those of a character. -/
def hasTerminator (c : Char) : Bool :=
  (String.utf8EncodeChar c).contains 0x9c

namespace Control

/-- What the character behind one of a sequence is part of. -/
def within (k : Control) (c : Char) : Control :=
  match k with
  | escape =>
    if c < '0' then command
    else if c = '[' then sequence
    else if c = ']' then title
    else if c = 'P' then device
    else if c = 'X' ∨ c = '^' ∨ c = '_' then string
    else text
  | command => if c < '0' then command else text
  | sequence => if c < '@' then sequence else text
  | device => if c < '0' then marks else if c < '@' then parameters else string
  | parameters => if c < '0' then marks else if c < '<' then parameters else string
  | marks => if c < '0' then marks else string
  | title | string | text => k

/-- Whether a string of a device is about to begin. -/
def isDevice (k : Control) : Bool :=
  k = device || k = parameters || k = marks

/-- What the next character is part of, and whether this one shows. -/
def step (k : Control) (c : Char) : Control × Bool :=
  if c = '\x1b' then (escape, false)
  else if c = '\x18' ∨ c = '\x1a' then (text, false)
  else
    match k with
    | text => (text, isLayout c || !isControl c)
    | title => (if c = '\x07' then text else title, false)
    | string => (if hasTerminator c then text else string, false)
    | k =>
      if isLayout c && !k.isDevice then (text, true)
      else if isControl c || 0x80 ≤ c.toNat then (k, false)
      else (k.within c, false)

/-- The characters that show. -/
def shown (k : Control) : List Char → List Char
  | [] => []
  | c :: cs =>
    let (next, shows) := k.step c
    if shows then c :: next.shown cs else next.shown cs

end Control

/-- What shows of a text. -/
def printed (s : String) : String :=
  String.ofList (Control.shown .text s.toList)

end InjectionGrammar
