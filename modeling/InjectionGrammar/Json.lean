/-!
JSON text. A value is printed in two layouts: without any blanks, and one item a line, indented by
four spaces a level. Blanks outside of strings aside the two are the same text.
-/
namespace InjectionGrammar

/-- The JSON values that grammars are made of; an object lists its members in printing order. -/
inductive Json where
  | string (s : String)
  | array (items : List Json)
  | object (members : List (String × Json))

namespace Json

def hexDigit (n : Nat) : Char :=
  if n < 10 then Char.ofNat (48 + n) else Char.ofNat (87 + n)

/-- A character within quotes. Only quotes, backslashes and control characters are escaped. -/
def escapeChar (c : Char) : List Char :=
  if c = '"' then ['\\', '"']
  else if c = '\\' then ['\\', '\\']
  else if c = '\x08' then ['\\', 'b']
  else if c = '\t' then ['\\', 't']
  else if c = '\n' then ['\\', 'n']
  else if c = '\x0c' then ['\\', 'f']
  else if c = '\r' then ['\\', 'r']
  else if c.toNat < 0x20 then
    ['\\', 'u', '0', '0', hexDigit (c.toNat / 16), hexDigit (c.toNat % 16)]
  else [c]

def quote (s : String) : List Char :=
  '"' :: (s.toList.flatMap escapeChar ++ ['"'])

mutual

/-- The text without blanks. -/
def compact : Json → List Char
  | .string s => quote s
  | .array [] => ['[', ']']
  | .array (v :: vs) => '[' :: (compact v ++ (compactItems vs ++ [']']))
  | .object [] => ['{', '}']
  | .object ((k, v) :: ms) => '{' :: (quote k ++ ':' :: (compact v ++ (compactMembers ms ++ ['}'])))

def compactItems : List Json → List Char
  | [] => []
  | v :: vs => ',' :: (compact v ++ compactItems vs)

def compactMembers : List (String × Json) → List Char
  | [] => []
  | (k, v) :: ms => ',' :: (quote k ++ ':' :: (compact v ++ compactMembers ms))

end

/-- A line break and the indentation of the given level. -/
def newline (level : Nat) : List Char :=
  '\n' :: List.replicate (4 * level) ' '

mutual

/-- The text with one item a line, for a value at the given level. -/
def indented (level : Nat) : Json → List Char
  | .string s => quote s
  | .array [] => ['[', ']']
  | .array (v :: vs) =>
    '[' :: (newline (level + 1) ++ (indented (level + 1) v ++
      (indentedItems (level + 1) vs ++ (newline level ++ [']']))))
  | .object [] => ['{', '}']
  | .object ((k, v) :: ms) =>
    '{' :: (newline (level + 1) ++ (quote k ++ ':' :: ' ' :: (indented (level + 1) v ++
      (indentedMembers (level + 1) ms ++ (newline level ++ ['}'])))))

def indentedItems (level : Nat) : List Json → List Char
  | [] => []
  | v :: vs => ',' :: (newline level ++ (indented level v ++ indentedItems level vs))

def indentedMembers (level : Nat) : List (String × Json) → List Char
  | [] => []
  | (k, v) :: ms =>
    ',' :: (newline level ++ (quote k ++ ':' :: ' ' :: (indented level v ++
      indentedMembers level ms)))

end

/-- The compact text of a value. -/
def toCompact (v : Json) : String :=
  String.ofList (compact v)

/-- The indented text of a value, as a file of its own. -/
def toFile (v : Json) : String :=
  String.ofList (indented 0 v ++ ['\n'])

end Json
end InjectionGrammar
