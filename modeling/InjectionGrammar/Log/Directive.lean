import InjectionGrammar.Log
import InjectionGrammar.Log.Expression
import InjectionGrammar.Text.Alphanumeric
import InjectionGrammar.Text.Blank
import InjectionGrammar.Text.Bytes
import InjectionGrammar.Text.Numeral

/-!
The parts of a filter for events. A directive is a level, or a target with or without a level behind
a sign. Brackets behind the target limit it to spans with a name, and braces within them to what
carries a field.
-/
namespace InjectionGrammar
namespace Log

/-- Shows the events whose target begins with the given text, up to a detail. -/
structure Directive where
  target : Option String := none
  /-- The name of a field that an event has to carry. -/
  field : Option String := none
  /-- Whether only events within a certain span are shown. The program opens no spans. -/
  inSpan : Bool := false
  detail : Nat
  deriving DecidableEq, Repr

def mostDetail : Nat := 5

/-- A level by name or number. -/
def detail? (s : String) : Option Nat :=
  let digits := match s.toList with
    | '+' :: r => r
    | s => s
  if !digits.isEmpty && digits.all Char.isDigit then
    let n := digits.foldl (fun n d => n * 10 + (d.toNat - 48)) 0
    if n ≤ mostDetail then some n else none
  else
    [("off", 0), ("error", 1), ("warn", 2), ("info", 3), ("debug", 4), ("trace", 5)].lookup
      s.toLower

/-- Takes away the blanks around a text. -/
def trim (s : List Char) : List Char :=
  ((s.dropWhile isBlank).reverse.dropWhile isBlank).reverse

/-- Whether a text stands for a number because of the sign in front of it. -/
def isSignedNumber : List Char → Bool
  | '+' :: s => isDecimal s || ["inf", "infinity", "nan"].contains (String.ofList s).toLower
  | _ => false

/-- Whether a field can be compared with a value. -/
def isFieldValue (s : List Char) : Bool :=
  Expression.isMeaningful s || isSignedNumber s

namespace Directive

/-- The level that a text consists of from a place on. -/
def levelFrom? (s : List Char) (start : Nat) : Option Nat := do
  let level ← fromByte? start s
  if level.isEmpty then return mostDetail else detail? (String.ofList level)

/-- Reads what is left behind a target and its brackets. -/
def finish? (s : List Char) (d : Directive) (place : Nat) : List Char → Option Directive
  | [] => some d
  | '=' :: _ => (levelFrom? s (place + 1)).map fun detail => { d with detail }
  | _ => none

/-- Reads the rest of brackets: the name of a span, or a field between braces. -/
def readSpan? (s : List Char) (d : Directive) (place : Nat) (rest : List Char) :
    Option Directive :=
  let name := rest.takeWhile fun c => c ≠ ']' ∧ c ≠ '\x7b'
  let stop := place + byteLength name
  match rest.dropWhile fun c => c ≠ ']' ∧ c ≠ '\x7b' with
  | [] => none
  | ']' :: rest => finish? s { d with inSpan := true } (stop + 1) rest
  | _ :: rest =>
    let field := rest.takeWhile (· ≠ '\x7d')
    let close := stop + 1 + byteLength field
    match rest.dropWhile (· ≠ '\x7d') with
    | _ :: ']' :: rest => do
      let name ← betweenBytes? place stop s
      let field ← betweenBytes? (stop + 1) close s
      if field.isEmpty then none
      let value := (field.dropWhile (· ≠ '=')).drop 1 |>.takeWhile (· ≠ '=')
      let hasValue := field.contains '='
      if hasValue && !isFieldValue value then none
      finish? s { d with
        field := some (String.ofList (field.takeWhile (· ≠ '=')))
        inSpan := hasValue || !name.isEmpty } (close + 2) rest
    | _ => none

/-- Reads a directive. Its signs are looked for in the text without the blanks around it, but its
parts are those of the whole text at the same places. -/
def ofChars? (s : List Char) : Option Directive :=
  let trimmed := trim s
  let word := trimmed.takeWhile fun c => c ≠ '=' ∧ c ≠ '['
  let stop := byteLength word
  let target := (betweenBytes? 0 stop s).map String.ofList
  match trimmed.head?, trimmed.dropWhile fun c => c ≠ '=' ∧ c ≠ '[' with
  | some '[', rest => readSpan? s { detail := mostDetail } 1 (rest.drop 1)
  | some c, rest =>
    if !(isAlphanumeric c || c = '-' || c = ':' || c = '_') then none
    else
      match rest with
      | [] =>
        let whole := String.ofList s
        some <| match detail? whole with
          | some detail => { detail }
          | none => { target := some whole, detail := mostDetail }
      | '=' :: _ => do
        let target ← target
        let detail ← levelFrom? s (stop + 1)
        return { target, detail }
      | _ :: rest => do
        let target ← target
        readSpan? s { target, detail := mostDetail } (stop + 1) rest
  | none, _ => none

/-- Whether it shows events with a target, if their detail permits. -/
def selects (d : Directive) (target : String) : Bool :=
  !d.inSpan && (d.target.all fun stem => stem.toList.isPrefixOf target.toList) &&
    d.field.all (· == Event.field)

/-- How much it asks of an event: the length of the target, and the field. -/
def rank (d : Directive) : Nat × Nat :=
  ((d.target.map fun stem => stem.length + 1).getD 0, if d.field.isSome then 1 else 0)

end Directive
end Log
end InjectionGrammar
