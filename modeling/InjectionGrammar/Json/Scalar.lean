import InjectionGrammar.Decimal.Shortest
import InjectionGrammar.Json.Problem

/-! Reading strings, numbers and words of JSON. -/
namespace InjectionGrammar
namespace Json

/-- The number that four hexadecimal digits stand for. -/
def hexValue4? (a b c d : Char) : Option Nat := do
  return ((((← hexValue? a) * 16 + (← hexValue? b)) * 16 + (← hexValue? c)) * 16 + (← hexValue? d))

/-- Fails where four hexadecimal digits should be. -/
def stopInHex {α : Type} (s : List Char) : Except Stop α :=
  if byteLength s < 4 then stop .endInString []
  else .error ⟨.invalidEscape, s, 4⟩

/-- The character that a letter stands for after a backslash. -/
def unescape? (c : Char) : Option Char :=
  if c = '"' ∨ c = '\\' ∨ c = '/' then some c
  else if c = 'b' then some '\x08'
  else if c = 'f' then some '\x0c'
  else if c = 'n' then some '\n'
  else if c = 'r' then some '\r'
  else if c = 't' then some '\t'
  else none

def isLeading (n : Nat) : Bool := 0xd800 ≤ n && n ≤ 0xdbff

def isTrailing (n : Nat) : Bool := 0xdc00 ≤ n && n ≤ 0xdfff

/-- The character that a pair of surrogates stands for. -/
def ofSurrogates (leading trailing : Nat) : Char :=
  Char.ofNat ((leading - 0xd800) * 0x400 + (trailing - 0xdc00) + 0x10000)

/-- Puts a character before those still to be read. -/
def consChar (c : Char) (r : Except Stop (List Char × List Char)) :
    Except Stop (List Char × List Char) :=
  r.map fun p => (c :: p.1, p.2)

/-- The characters up to the closing quote. -/
def readChars : Reader (List Char)
  | [] => stop .endInString []
  | c :: s =>
    if c = '"' then .ok ([], s)
    else if c = '\\' then
      match s with
      | [] => stop .endInString []
      | e :: s =>
        if e = 'u' then
          match s with
          | h₁ :: h₂ :: h₃ :: h₄ :: r =>
            match hexValue4? h₁ h₂ h₃ h₄ with
            | none => stopInHex (h₁ :: h₂ :: h₃ :: h₄ :: r)
            | some n =>
              if isTrailing n then stop .loneSurrogate r
              else if isLeading n then
                match r with
                | [] => stop .endInString []
                | b :: r₁ =>
                  if b ≠ '\\' then stopAt .brokenSurrogatePair r
                  else
                    match r₁ with
                    | [] => stop .endInString []
                    | u :: r₂ =>
                      if u ≠ 'u' then stopAt .brokenSurrogatePair r₁
                      else
                        match r₂ with
                        | k₁ :: k₂ :: k₃ :: k₄ :: r₃ =>
                          match hexValue4? k₁ k₂ k₃ k₄ with
                          | none => stopInHex (k₁ :: k₂ :: k₃ :: k₄ :: r₃)
                          | some m =>
                            if isTrailing m then consChar (ofSurrogates n m) (readChars r₃)
                            else stop .loneSurrogate r₃
                        | r₂ => stopInHex r₂
              else consChar (Char.ofNat n) (readChars r)
          | s => stopInHex s
        else
          match unescape? e with
          | none => stopAt .invalidEscape (e :: s)
          | some x => consChar x (readChars s)
    else if c.toNat < 0x20 then stopAt .controlCharacter (c :: s)
    else consChar c (readChars s)

/-- The string up to the closing quote. -/
def readQuoted (s : List Char) : Except Stop (String × List Char) :=
  (readChars s).map fun p => (String.ofList p.1, p.2)

/-- Passes over the characters up to the closing quote; surrogates may stand alone. -/
def skipChars : List Char → Except Stop (List Char)
  | [] => stop .endInString []
  | c :: s =>
    if c = '"' then .ok s
    else if c = '\\' then
      match s with
      | [] => stop .endInString []
      | e :: s =>
        if e = 'u' then
          match s with
          | h₁ :: h₂ :: h₃ :: h₄ :: r =>
            match hexValue4? h₁ h₂ h₃ h₄ with
            | none => stopInHex (h₁ :: h₂ :: h₃ :: h₄ :: r)
            | some _ => skipChars r
          | s => stopInHex s
        else
          match unescape? e with
          | none => stopAt .invalidEscape (e :: s)
          | some _ => skipChars s
    else if c.toNat < 0x20 then stop .controlCharacter (c :: s)
    else skipChars s

/-- Passes over the letters of a word. -/
def skipWord : List Char → List Char → Except Stop (List Char)
  | [], s => .ok s
  | _ :: _, [] => stop .endInValue []
  | w :: ws, c :: s => if c = w then skipWord ws s else stopAt .expectedWord (c :: s)

inductive Number where
  | integer (n : Int)
  | decimal (negative : Bool) (value : Binary)
  deriving DecidableEq, Repr

def Number.found : Number → Found
  | .integer n => .integer n
  | .decimal negative value =>
    .decimal ((if negative then "-" else "") ++ (value.shortest .toEven).general)

def digitValue (c : Char) : Nat :=
  c.toNat - 48

/-- Appends digits to a number for as long as it stays below a limit; returns the digits left. -/
def appendDigits (limit : Nat) (n : Nat) : List Char → Nat × List Char
  | [] => (n, [])
  | d :: ds =>
    if n * 10 + digitValue d < limit then appendDigits limit (n * 10 + digitValue d) ds
    else (n, d :: ds)

/-- Scales a number by a power of ten, in steps that the largest number allows. -/
def scale (f : Binary) (e : Int) : Nat → Option Binary
  | 0 => some f
  | steps + 1 =>
    if e.natAbs ≤ 308 then do
      let p ← Binary.powerOfTen e.natAbs
      if 0 ≤ e then f.mul p else f.div p
    else if f.mantissa = 0 then some f
    else if 0 ≤ e then none
    else do
      let p ← Binary.powerOfTen 308
      scale (← f.div p) (e + 308) steps

/-- The number with the given digits and power of ten. -/
def decimalNumber (negative : Bool) (digits : Nat) (e : Int) (rest : List Char) :
    Except Stop (Number × List Char) :=
  match (Binary.ofNat digits).bind fun f => scale f e 4 with
  | none => stop .numberOutOfRange rest
  | some f => .ok (.decimal negative f, rest)

def isExponentMark (c : Char) : Bool :=
  c = 'e' || c = 'E'

/-- Reads what follows the mark of an exponent. -/
def readExponent (negative : Bool) (digits : Nat) (e : Int) (s : List Char) :
    Except Stop (Number × List Char) :=
  let (down, s) := match s with
    | [] => (false, [])
    | c :: r => if c = '+' then (false, r) else if c = '-' then (true, r) else (false, c :: r)
  match s with
  | [] => stop .endInValue []
  | c :: r =>
    if !c.isDigit then stopAt .invalidNumber (c :: r)
    else
      let (n, left) := appendDigits (UInt32.size / 2) 0 (s.takeWhile Char.isDigit)
      let rest := s.dropWhile Char.isDigit
      if left.isEmpty then decimalNumber negative digits (if down then e - n else e + n) rest
      else if digits ≠ 0 ∧ !down then stop .numberOutOfRange (left.drop 1 ++ rest)
      else .ok (.decimal negative .zero, rest)

/-- Reads what follows the decimal point. -/
def readFraction (negative : Bool) (digits : Nat) (e : Int) (s : List Char) :
    Except Stop (Number × List Char) :=
  let places := s.takeWhile Char.isDigit
  match places, s with
  | [], [] => stop .endInValue []
  | [], c :: r => stopAt .invalidNumber (c :: r)
  | _ :: _, _ =>
    let (digits, left) := appendDigits UInt64.size digits places
    let e := e - (places.length - left.length : Nat)
    match s.dropWhile Char.isDigit with
    | [] => decimalNumber negative digits e []
    | c :: r =>
      if isExponentMark c then readExponent negative digits e r
      else decimalNumber negative digits e (c :: r)

/-- Reads a number, less its sign. Digits beyond 64 bits make it a decimal. -/
def readNumber (negative : Bool) (s : List Char) : Except Stop (Number × List Char) :=
  match s with
  | [] => stop .endInValue []
  | c :: r =>
    let digits := s.takeWhile Char.isDigit
    let rest := s.dropWhile Char.isDigit
    if !c.isDigit then stopAt .invalidNumber (c :: r)
    else if c = '0' ∧ 1 < digits.length then stopAt .invalidNumber r
    else
      let (n, left) := appendDigits UInt64.size 0 digits
      let whole := fun rest =>
        if !left.isEmpty then decimalNumber negative n left.length rest
        else if !negative then .ok (.integer n, rest)
        else if n = 0 ∨ UInt64.size / 2 < n then decimalNumber true n 0 rest
        else .ok (.integer (-n), rest)
      match rest with
      | [] => whole []
      | m :: r =>
        if m = '.' then readFraction negative n left.length r
        else if isExponentMark m then readExponent negative n left.length r
        else whole (m :: r)

/-- Passes over an exponent, from behind its mark. -/
def skipExponent (s : List Char) : Except Stop (List Char) :=
  let s := match s with
    | [] => []
    | c :: r => if c = '+' ∨ c = '-' then r else c :: r
  match s with
  | [] => stop .invalidNumber []
  | c :: r => if c.isDigit then .ok (r.dropWhile Char.isDigit) else stopAt .invalidNumber (c :: r)

/-- Passes over a number, less its sign. -/
def skipNumber (s : List Char) : Except Stop (List Char) :=
  match s with
  | [] => stop .invalidNumber []
  | c :: r =>
    if !c.isDigit then stopAt .invalidNumber (c :: r)
    else if c = '0' ∧ r.head?.any Char.isDigit then stopAt .invalidNumber r
    else
      match s.dropWhile Char.isDigit with
      | [] => .ok []
      | m :: r =>
        if m = '.' then
          match r.dropWhile Char.isDigit with
          | [] => if r.isEmpty then stop .invalidNumber [] else .ok []
          | c :: t =>
            if r.head?.any Char.isDigit then
              if isExponentMark c then skipExponent t else .ok (c :: t)
            else stopAt .invalidNumber r
        else if isExponentMark m then skipExponent r
        else .ok (m :: r)

end Json
end InjectionGrammar
