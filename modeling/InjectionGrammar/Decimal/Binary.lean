/-!
Binary numbers of 53 bits, and the rounding of ratios to them. All arithmetic is exact until the
final rounding, which goes to the nearest number and from the middle to the even one.
-/
namespace InjectionGrammar

def pow2 (n : Nat) : Nat := Nat.pow 2 n

def pow10 (n : Nat) : Nat := Nat.pow 10 n

/-- The number `mantissa * 2 ^ exponent`. The mantissa has 53 bits, or fewer at the smallest
exponent. -/
structure Binary where
  mantissa : Nat
  exponent : Int
  deriving DecidableEq, Repr

namespace Binary

def smallestExponent : Int := -1074
def largestExponent : Int := 971

def zero : Binary := ⟨0, smallestExponent⟩

/-- The value as a ratio. -/
def ratio (b : Binary) : Nat × Nat :=
  (b.mantissa * pow2 b.exponent.toNat, pow2 (-b.exponent).toNat)

/-- The integer nearest to a ratio; of two the even one. -/
def roundDiv (num den : Nat) : Nat :=
  let q := num / den
  let r := num % den
  if 2 * r < den then q
  else if den < 2 * r then q + 1
  else if q % 2 = 0 then q else q + 1

/-- Rounds a ratio at a given exponent. -/
def roundAt (num den : Nat) (e : Int) : Nat :=
  roundDiv (num * pow2 (-e).toNat) (den * pow2 e.toNat)

/-- The number nearest to a ratio, unless the ratio is too large for any. -/
def ofRatio (num den : Nat) : Option Binary :=
  if num = 0 then some zero
  else
    let lowest : Int := max ((num.log2 : Int) - (den.log2 : Int) - 53) smallestExponent
    let floor := (num * pow2 (-lowest).toNat) / (den * pow2 lowest.toNat)
    let e := if pow2 53 ≤ floor then lowest + 1 else lowest
    let m := roundAt num den e
    let b : Binary := if m = pow2 53 then ⟨pow2 52, e + 1⟩ else ⟨m, e⟩
    if largestExponent < b.exponent then none else some b

def ofNat (n : Nat) : Option Binary :=
  ofRatio n 1

def mul (a b : Binary) : Option Binary :=
  ofRatio (a.ratio.1 * b.ratio.1) (a.ratio.2 * b.ratio.2)

/-- The quotient by a number that is not zero. -/
def div (a b : Binary) : Option Binary :=
  ofRatio (a.ratio.1 * b.ratio.2) (a.ratio.2 * b.ratio.1)

/-- The number nearest to `digits * 10 ^ exponent`. Powers of ten that exceed all numbers, or are
next to nothing, are not computed. -/
def ofDecimal (digits : Nat) (exponent : Int) : Option Binary :=
  let leading := exponent + (Nat.toDigits 10 digits).length
  if digits = 0 ∨ leading < -330 then some zero
  else if 320 < leading then none
  else ofRatio (digits * pow10 exponent.toNat) (pow10 (-exponent).toNat)

/-- The number nearest to a power of ten. -/
def powerOfTen (n : Nat) : Option Binary :=
  ofNat (pow10 n)

end Binary
end InjectionGrammar
