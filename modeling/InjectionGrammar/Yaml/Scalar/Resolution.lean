import InjectionGrammar.Decimal.Shortest
import InjectionGrammar.Text.Numeral
import InjectionGrammar.Text.Quoted
import InjectionGrammar.Yaml.Token

/-! Which scalars stand for something other than a string. -/
namespace InjectionGrammar
namespace Yaml

/-- What a value turns out to be. -/
inductive Found where
  | null
  | boolean (b : Bool)
  | integer (n : Int)
  /-- An integer of more than 64 bits. -/
  | wideInteger (n : Int)
  | decimal (text : String)
  | string (s : String)
  | sequence
  | mapping
  deriving DecidableEq, Repr

def Found.message : Found → String
  | null => "unit value"
  | boolean b => "boolean `" ++ (if b then "true" else "false") ++ "`"
  | integer n => "integer `" ++ signedNumeral n ++ "`"
  | wideInteger n => "integer `" ++ signedNumeral n ++ "` as " ++ if n < 0 then "i128" else "u128"
  | decimal text => "floating point `" ++ text ++ "`"
  | string s => "string " ++ quoted s
  | sequence => "sequence"
  | mapping => "map"

def isNull (s : String) : Bool :=
  s == "null" || s == "Null" || s == "NULL" || s == "~"

def boolean? (s : String) : Option Bool :=
  if s == "true" || s == "True" || s == "TRUE" then some true
  else if s == "false" || s == "False" || s == "FALSE" then some false
  else none

/-- The number that digits of a base stand for; there is at least one. -/
def digits? (base : Nat) (cs : List Char) : Option Nat :=
  let value (c : Char) : Option Nat :=
    if '0' ≤ c ∧ c ≤ '9' then some (c.toNat - 48)
    else if 'a' ≤ c ∧ c ≤ 'z' then some (c.toNat - 87)
    else if 'A' ≤ c ∧ c ≤ 'Z' then some (c.toNat - 55)
    else none
  if cs.isEmpty then none
  else cs.foldlM (fun n c => (value c).bind fun d =>
    if d < base then some (n * base + d) else none) 0

/-- Digits that begin with zero are a string. -/
def hasLeadingZero (s : List Char) : Bool :=
  match dropSign s with
  | '0' :: d :: ds => (d :: ds).all Char.isDigit
  | _ => false

/-- The digits of a magnitude, with or without the mark of a base. -/
def magnitude? : List Char → Option Nat
  | '0' :: 'x' :: s => digits? 16 s
  | '0' :: 'o' :: s => digits? 8 s
  | '0' :: 'b' :: s => digits? 2 s
  | s => if hasLeadingZero s then none else digits? 10 s

/-- The integer that a text stands for, if it has at most 128 bits. -/
def integer? (s : List Char) : Option Found :=
  match s with
  | '-' :: r => do
    let n ← magnitude? r
    if n ≤ UInt64.size / 2 then return .integer (-n)
    else if n ≤ UInt64.size * UInt64.size / 2 then return .wideInteger (-n)
    else none
  | s => do
    let n ← magnitude? (match s with
      | '+' :: r => r
      | s => s)
    if n < UInt64.size then return .integer n
    else if n < UInt64.size * UInt64.size then return .wideInteger n
    else none

/-- An exponent behind its letter. -/
def exponent? (s : List Char) : Option Int :=
  (digits? 10 (dropSign s)).map fun n => if s.head? = some '-' then -n else n

/-- The finite number that digits, with or without a point and an exponent, stand for. -/
def finite? (s : List Char) : Option Binary := do
  let whole := s.takeWhile Char.isDigit
  let s := s.dropWhile Char.isDigit
  let (places, s) := match s with
    | '.' :: r => (r.takeWhile Char.isDigit, r.dropWhile Char.isDigit)
    | s => ([], s)
  let digits ← digits? 10 (whole ++ places)
  let e ← match s with
    | [] => some 0
    | c :: r => if c = 'e' ∨ c = 'E' then exponent? r else none
  Binary.ofDecimal digits (e - places.length)

/-- The decimal number that a text stands for; infinities and the like are written as words. -/
def decimal? (s : List Char) : Option Found :=
  let word := fun u : List Char => [".inf", ".Inf", ".INF"].contains (String.ofList u)
  match s with
  | '-' :: r =>
    if word r then some (.decimal "-inf")
    else (finite? r).map fun b => .decimal ("-" ++ (b.shortest .up).positional)
  | s =>
    let r := match s with
      | '+' :: r => r
      | s => s
    if word r then some (.decimal "inf")
    else if [".nan", ".NaN", ".NAN"].contains (String.ofList s) then some (.decimal "NaN")
    else (finite? r).map fun b => .decimal (b.shortest .up).positional

/-- What a scalar without quotes and tag stands for. -/
def resolvePlain (s : String) : Found :=
  if s.isEmpty || isNull s then .null
  else
    match boolean? s with
    | some b => .boolean b
    | none =>
      match integer? s.toList with
      | some found => found
      | none =>
        if hasLeadingZero s.toList then .string s
        else (decimal? s.toList).getD (.string s)

/-- A type that a tag demands and the scalar does not have. -/
inductive Demand where
  | boolean
  | integer
  | decimal
  | null
  deriving DecidableEq, Repr

def Demand.message : Demand → String
  | boolean => "a boolean"
  | integer => "an integer"
  | decimal => "a float"
  | null => "null"

/-- The type that a tag demands. -/
def demand? (tag : String) : Option Demand :=
  if tag == "tag:yaml.org,2002:bool" then some .boolean
  else if tag == "tag:yaml.org,2002:int" then some .integer
  else if tag == "tag:yaml.org,2002:float" then some .decimal
  else if tag == "tag:yaml.org,2002:null" then some .null
  else none

/-- Tags that are not those of a shared vocabulary. -/
def isLocal (tag : String) : Bool :=
  tag.toList.head? == some '!'

/-- Local tags whose bytes encode a text. -/
def isLegible (tag : String) : Bool :=
  isLocal tag && (String.fromUTF8? ⟨(tag.toList.map Char.toUInt8).toArray⟩).isSome

/-- What a scalar stands for. -/
def resolve (text : String) (style : Style) (tag : Option String) : Except Demand Found :=
  let otherwise : Found := if style = .plain then resolvePlain text else .string text
  match tag with
  | none => .ok otherwise
  | some t =>
    match demand? t with
    | some .boolean => ((boolean? text).map fun b => .ok (.boolean b)).getD (.error .boolean)
    | some .integer => ((integer? text.toList).map .ok).getD (.error .integer)
    | some .decimal => ((decimal? text.toList).map .ok).getD (.error .decimal)
    | some .null => if isNull text then .ok .null else .error .null
    | none => .ok (if isLocal t then otherwise else .string text)

end Yaml
end InjectionGrammar
