/-! Numbers as text, and characters by their numbers. -/
namespace InjectionGrammar

/-- A number in decimal digits, without leading zeros. -/
def numeral (n : Nat) : String :=
  String.ofList (Nat.toDigits 10 n)

/-- A number with a sign if it is negative. -/
def signedNumeral (n : Int) : String :=
  (if n < 0 then "-" else "") ++ numeral n.natAbs

/-- The number that a hexadecimal digit of either case stands for. -/
def hexValue? (c : Char) : Option Nat :=
  if '0' ≤ c ∧ c ≤ '9' then some (c.toNat - 48)
  else if 'a' ≤ c ∧ c ≤ 'f' then some (c.toNat - 87)
  else if 'A' ≤ c ∧ c ≤ 'F' then some (c.toNat - 55)
  else none

/-- The number of hexadecimal digits that follow a letter after a backslash. -/
def codeLength? (c : Char) : Option Nat :=
  if c = 'x' then some 2
  else if c = 'u' then some 4
  else if c = 'U' then some 8
  else none

/-- The character of a code, unless it is half of a pair or too large. -/
def charOfCode? (n : Nat) : Option Char :=
  if n.isValidChar then some (Char.ofNat n) else none

def dropSign : List Char → List Char
  | [] => []
  | c :: s => if c = '+' ∨ c = '-' then s else c :: s

/-- Whether a text is an exponent from its letter on. -/
def isExponent : List Char → Bool
  | [] => false
  | c :: s => (c = 'e' || c = 'E') && !(dropSign s).isEmpty && (dropSign s).all Char.isDigit

/-- Whether a text is a number without a sign: digits with or without a point between them, and with
or without an exponent. -/
def isDecimal (s : List Char) : Bool :=
  let whole := s.takeWhile Char.isDigit
  let s := s.dropWhile Char.isDigit
  let (places, s) := match s with
    | '.' :: r => (r.takeWhile Char.isDigit, r.dropWhile Char.isDigit)
    | s => ([], s)
  !(whole ++ places).isEmpty && (s.isEmpty || isExponent s)

end InjectionGrammar
