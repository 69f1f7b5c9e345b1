import InjectionGrammar.Decimal.Binary
import InjectionGrammar.Text.Numeral

/-!
The shortest decimal form of a binary number: of the decimals that round to the number those with
the fewest digits, and of these the nearest. Which one to take where two are equally near is for
the caller to say.
-/
namespace InjectionGrammar

/-- The number `digits * 10 ^ exponent`. -/
structure Decimal where
  digits : Nat
  exponent : Int
  deriving DecidableEq, Repr

/-- Which of two neighbours a number in their middle goes to. -/
inductive Tie where
  | toEven
  | up
  deriving DecidableEq, Repr

/-- The integer nearest to a ratio. -/
def Tie.roundDiv (tie : Tie) (num den : Nat) : Nat :=
  match tie with
  | .toEven => Binary.roundDiv num den
  | .up => (2 * num + den) / (2 * den)

namespace Binary

/-- The bounds of the ratios that round to a number, each a ratio, and whether they do so too. -/
def bounds (b : Binary) : (Nat × Nat) × (Nat × Nat) × Bool :=
  let scale := pow2 (b.exponent - 2).toNat
  let den := pow2 (2 - b.exponent).toNat
  let below := if b.mantissa = pow2 52 ∧ smallestExponent < b.exponent then 1 else 2
  (((4 * b.mantissa - below) * scale, den), ((4 * b.mantissa + 2) * scale, den),
    b.mantissa % 2 = 0)

/-- The exponent of the leading decimal digit of a ratio that is not zero. -/
def leadingExponent (num den : Nat) : Int :=
  if den ≤ num then (Nat.toDigits 10 (num / den)).length - 1
  else
    let places := (Nat.toDigits 10 (den / num)).length
    if den ≤ num * pow10 (places - 1) then -((places - 1 : Nat) : Int) else -(places : Int)

/-- Whether a decimal lies within the bounds of a number. -/
def admits (b : Binary) (d : Decimal) : Bool :=
  let (low, high, closed) := b.bounds
  let num := d.digits * pow10 d.exponent.toNat
  let den := pow10 (-d.exponent).toNat
  let l := compare (low.1 * den) (num * low.2)
  let h := compare (num * high.2) (high.1 * den)
  (l == .lt || closed && l == .eq) && (h == .lt || closed && h == .eq)

/-- The better one of the two decimals with the given last place around a number, if any does. -/
def neighbour? (b : Binary) (tie : Tie) (place : Int) : Option Decimal :=
  let num := b.ratio.1 * pow10 (-place).toNat
  let den := b.ratio.2 * pow10 place.toNat
  let down : Decimal := ⟨num / den, place⟩
  let up : Decimal := ⟨num / den + 1, place⟩
  match b.admits down, b.admits up with
  | true, true => some ⟨tie.roundDiv num den, place⟩
  | true, false => some down
  | false, true => some up
  | false, false => none

/-- Tries more and more digits. -/
def search (b : Binary) (tie : Tie) (leading : Int) (count : Nat) : Nat → Decimal
  | 0 => ⟨b.mantissa, b.exponent⟩
  | left + 1 =>
    match b.neighbour? tie (leading - count) with
    | some d => d
    | none => search b tie leading (count + 1) left

/-- The shortest decimal that rounds to a number. -/
def shortest (b : Binary) (tie : Tie) : Decimal :=
  if b.mantissa = 0 then ⟨0, 0⟩
  else
    let d := b.search tie (leadingExponent b.ratio.1 b.ratio.2) 0 17
    -- rounding up can carry into a new place, which leaves zeros at the end
    if d.digits % 10 = 0 then ⟨d.digits / 10, d.exponent + 1⟩ else d

end Binary

namespace Decimal

/-- Digits with a point between them, and at least one digit on either side. -/
def positional (d : Decimal) : String :=
  let ds := Nat.toDigits 10 d.digits
  if 0 ≤ d.exponent then
    String.ofList (ds ++ List.replicate d.exponent.toNat '0' ++ ['.', '0'])
  else
    let places := (-d.exponent).toNat
    let ds := List.replicate (places + 1 - ds.length) '0' ++ ds
    String.ofList (ds.take (ds.length - places) ++ '.' :: ds.drop (ds.length - places))

/-- The leading digit, the others after a point, and a power of ten with its sign. -/
def scientific (d : Decimal) : String :=
  let ds := Nat.toDigits 10 d.digits
  let e := d.exponent + ds.length - 1
  let es := Nat.toDigits 10 e.natAbs
  String.ofList (ds.take 1 ++ (if ds.length = 1 then [] else '.' :: ds.drop 1) ++
    ['e', if e < 0 then '-' else '+'] ++ es)

/-- Positional unless the number is very large or very small. -/
def general (d : Decimal) : String :=
  let e := d.exponent + (Nat.toDigits 10 d.digits).length - 1
  if d.digits = 0 ∨ (-5 ≤ e ∧ e ≤ 15) then d.positional else d.scientific

end Decimal
end InjectionGrammar
