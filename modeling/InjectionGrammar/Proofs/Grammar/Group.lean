import InjectionGrammar.Proofs.Grammar.Reading
import InjectionGrammar.Proofs.Json.Blind.Pairs
import Mathlib.Data.List.TakeWhile

/-! The keys of captures: a group has one key under which it is read, its numeral. -/
namespace InjectionGrammar

theorem digitChar_of_isDigit {c : Char} (h : c.isDigit = true) :
    c.toNat - 48 < 10 ∧ (c.toNat - 48).digitChar = c := by
  have hc : 48 ≤ c.toNat ∧ c.toNat ≤ 57 := by
    simpa [Char.isDigit, UInt32.le_iff_toNat_le] using h
  have hchars : ∀ n < 10, n.digitChar = Char.ofNat (48 + n) := by decide
  have hlt : c.toNat - 48 < 10 := by omega
  refine ⟨hlt, ?_⟩
  rw [hchars _ hlt, show 48 + (c.toNat - 48) = c.toNat by omega, Char.ofNat_toNat]

/-- Digits behind a number that is not zero are kept by the number that they form. -/
theorem toDigits_ofDigitChars {n : Nat} {ds : List Char} (hn : 0 < n)
    (hds : ∀ c ∈ ds, c.isDigit = true) :
    Nat.toDigits 10 (Nat.ofDigitChars 10 ds n) = Nat.toDigits 10 n ++ ds := by
  induction ds generalizing n with
  | nil => simp
  | cons d ds ih =>
    obtain ⟨hlt, hchar⟩ := digitChar_of_isDigit (hds d List.mem_cons_self)
    rw [Nat.ofDigitChars_cons]
    change Nat.toDigits 10 (Nat.ofDigitChars 10 ds (10 * n + (d.toNat - 48))) = _
    rw [ih (by omega) fun c hc => hds c (List.mem_cons_of_mem d hc),
      ← Nat.toDigits_append_toDigits (by decide) hn hlt, Nat.toDigits_of_lt_base hlt, hchar,
      List.append_assoc]
    rfl

/-- Digits are the numeral of the number that they form, unless a zero stands before others. -/
theorem numeral_ofDigitChars {d : Char} {ds : List Char} (hds : ∀ c ∈ d :: ds, c.isDigit = true)
    (hzero : ¬(d = '0' ∧ 1 < (d :: ds).length)) :
    (numeral (Nat.ofDigitChars 10 (d :: ds) 0)).toList = d :: ds := by
  rw [numeral, String.toList_ofList]
  obtain ⟨hlt, hchar⟩ := digitChar_of_isDigit (hds d List.mem_cons_self)
  by_cases hd : d = '0'
  · subst hd
    cases ds with
    | nil => rfl
    | cons d ds => exact absurd ⟨rfl, by simp⟩ hzero
  · have hpos : 0 < d.toNat - 48 := by
      by_contra hle
      have hnum : d.toNat - 48 = 0 := by omega
      rw [hnum] at hchar
      exact hd hchar.symm
    rw [Nat.ofDigitChars_cons]
    change Nat.toDigits 10 (Nat.ofDigitChars 10 ds (0 + (d.toNat - 48))) = _
    rw [Nat.zero_add, toDigits_ofDigitChars hpos fun c hc => hds c (List.mem_cons_of_mem d hc),
      Nat.toDigits_of_lt_base hlt, hchar]
    rfl

namespace Json
variable {s rest : List Char} {n : Int} {negative : Bool}

theorem appendDigits_eq_nil {limit m n : Nat} {ds : List Char}
    (h : appendDigits limit n ds = (m, [])) : m = Nat.ofDigitChars 10 ds n := by
  induction ds generalizing n with
  | nil => simpa [appendDigits, eq_comm] using h
  | cons d ds ih =>
    rw [appendDigits] at h
    split at h
    · rw [ih h, Nat.ofDigitChars_cons]
      change Nat.ofDigitChars 10 ds (n * 10 + (d.toNat - 48)) =
        Nat.ofDigitChars 10 ds (10 * n + (d.toNat - 48))
      rw [Nat.mul_comm]
    · cases h

/-- What is read is no integer. -/
def NoInteger (x : Except Stop (Number × List Char)) : Prop :=
  ∀ n rest, x ≠ .ok (.integer n, rest)

theorem noInteger_decimalNumber (digits : Nat) (e : Int) (s : List Char) :
    NoInteger (decimalNumber negative digits e s) := by
  intro n rest
  unfold decimalNumber
  split <;> exact nofun

theorem noInteger_readExponent (digits : Nat) (e : Int) (s : List Char) :
    NoInteger (readExponent negative digits e s) := by
  intro n rest
  unfold readExponent
  -- what stands behind the sign, whatever the sign is
  split
  next down s' _ =>
    cases s' with
    | nil => exact nofun
    | cons c r =>
      dsimp only
      split
      · exact nofun
      split
      · exact noInteger_decimalNumber _ _ _ n rest
      split <;> exact nofun

theorem noInteger_readFraction (digits : Nat) (e : Int) (s : List Char) :
    NoInteger (readFraction negative digits e s) := by
  intro n rest
  unfold readFraction
  dsimp only
  split
  · exact nofun
  · exact nofun
  · split
    · exact noInteger_decimalNumber _ _ _ n rest
    · split
      · exact noInteger_readExponent _ _ _ n rest
      · exact noInteger_decimalNumber _ _ _ n rest

theorem whole_eq_integer {m : Nat} {left s : List Char}
    (h : (if !left.isEmpty then decimalNumber negative m left.length s
      else if !negative then .ok (.integer m, s)
      else if m = 0 ∨ UInt64.size / 2 < m then decimalNumber true m 0 s
      else .ok (.integer (-m), s)) = .ok (.integer n, rest)) :
    if negative then n < 0 else left = [] ∧ n = m ∧ s = rest := by
  split at h
  · exact absurd h (noInteger_decimalNumber _ _ _ n rest)
  next hleft =>
    split at h
    next hpositive =>
      simp_all
    next hnegative =>
      split at h
      · exact absurd h (noInteger_decimalNumber _ _ _ n rest)
      next hm =>
        simp only [Except.ok.injEq, Prod.mk.injEq, Number.integer.injEq] at h
        simp_all
        omega

/-- An integer is read from its numeral, up to the first character that is no digit; behind a minus
sign it is less than zero. -/
theorem readNumber_eq_integer (h : readNumber negative s = .ok (.integer n, rest)) :
    if negative then n < 0 else s = (numeral n.toNat).toList ++ rest ∧ 0 ≤ n := by
  cases s with
  | nil => cases h
  | cons c r =>
    have hwhole : ∃ m left,
        appendDigits UInt64.size 0 ((c :: r).takeWhile Char.isDigit) = (m, left) ∧
        c.isDigit = true ∧ ¬(c = '0' ∧ 1 < ((c :: r).takeWhile Char.isDigit).length) ∧
        if negative then n < 0 else left = [] ∧ n = m ∧
          (c :: r).dropWhile Char.isDigit = rest := by
      unfold readNumber at h
      dsimp only at h
      split at h
      · cases h
      next hdigit =>
        split at h
        · cases h
        next hzero =>
          refine ⟨_, _, rfl, by simpa using hdigit, hzero, ?_⟩
          split at h
          next hdrop =>
            rw [hdrop]
            exact whole_eq_integer h
          next m r' hdrop =>
            split at h
            · exact absurd h (noInteger_readFraction _ _ _ n rest)
            split at h
            · exact absurd h (noInteger_readExponent _ _ _ n rest)
            rw [hdrop]
            exact whole_eq_integer h
    obtain ⟨m, left, hdigits, hc, hzero, hwhole⟩ := hwhole
    cases negative with
    | true => exact hwhole
    | false =>
      obtain ⟨rfl, rfl, rfl⟩ := hwhole
      have htake : (c :: r).takeWhile Char.isDigit = c :: r.takeWhile Char.isDigit :=
        List.takeWhile_cons_of_pos hc
      have hall : ∀ x ∈ c :: r.takeWhile Char.isDigit, x.isDigit = true := by
        rw [← htake]
        exact fun x hx => List.mem_takeWhile_imp hx
      rw [htake] at hdigits hzero
      have hnumeral := numeral_ofDigitChars hall hzero
      rw [← appendDigits_eq_nil hdigits, ← htake] at hnumeral
      refine ⟨?_, by simp⟩
      rw [Int.toNat_natCast, hnumeral, List.takeWhile_append_dropWhile]

end Json

open Json

/-- A group is read from nothing but its numeral. -/
theorem readGroup_eq_ok {s rest : List Char} {k : UInt32} (h : readGroup s = .ok (k, rest)) :
    s = (numeral k.toNat).toList ++ '"' :: rest := by
  unfold readGroup at h
  split at h
  · cases h
  next c r =>
    split at h
    · dsimp only at h
      split at h
      -- behind a minus sign there is no group
      · obtain ⟨⟨n, t⟩, hnumber, h⟩ := Except.bind_eq_ok.1 h
        cases n with
        | decimal negative value => cases h
        | integer n =>
          have hnegative : n < 0 := readNumber_eq_integer hnumber
          simp [hnegative, stop] at h
      · obtain ⟨⟨n, t⟩, hnumber, h⟩ := Except.bind_eq_ok.1 h
        cases n with
        | decimal negative value => cases h
        | integer n =>
          obtain ⟨hs, hn⟩ := readNumber_eq_integer hnumber
          dsimp only at h
          split at h
          · cases h
          next hrange =>
            split at h
            · cases h
            next q u =>
              split at h
              next hq =>
                obtain ⟨rfl, rfl⟩ := Prod.mk.inj (Except.ok.inj h)
                have hk : n.toNat.toUInt32.toNat = n.toNat := by
                  apply UInt32.toNat_ofNat_of_lt
                  omega
                rw [hs, hk, hq]
              · cases h
    · cases h

theorem not_isBody_of_quote {ds s : List Char} (hds : ∀ c ∈ ds, c.isDigit = true) :
    ¬IsBody (ds ++ '"' :: s) := by
  induction ds with
  | nil =>
    intro h
    rw [List.nil_append] at h
    cases h with
    | plain hquote => exact hquote rfl
  | cons d ds ih =>
    intro h
    have hd := hds d List.mem_cons_self
    rw [List.cons_append] at h
    generalize hs : ds ++ '"' :: s = t at h
    cases h with
    | plain _ _ _ h => exact ih (fun c hc => hds c (List.mem_cons_of_mem d hc)) (hs ▸ h)
    | short => cases hd
    | code => cases hd

/-- Up to the first quote, what stands before it is determined. -/
theorem digits_eq_of_quote {body ds s t : List Char} (hbody : IsBody body)
    (hds : ∀ c ∈ ds, c.isDigit = true) (h : body ++ '"' :: s = ds ++ '"' :: t) : body = ds := by
  rcases List.append_eq_append_iff.1 h with ⟨u, rfl, hu⟩ | ⟨u, rfl, hu⟩
  · cases u with
    | nil => rw [List.append_nil]
    | cons c u =>
      obtain ⟨rfl, -⟩ := List.cons.inj hu
      have hquote := hds '"' (by simp)
      cases hquote
  · cases u with
    | nil => rw [List.append_nil]
    | cons c u =>
      obtain ⟨rfl, -⟩ := List.cons.inj hu
      exact absurd hbody (not_isBody_of_quote hds)

/-- A group has no key but its numeral, so that two groups differ if their keys do. -/
theorem readsNames_readGroup : ReadsNames readGroup fun k => numeral k.toNat := by
  intro body
  by_cases hnumeral : ∃ k : UInt32, body = (numeral k.toNat).toList
  · obtain ⟨k, rfl⟩ := hnumeral
    refine ⟨some k, ?_, ?_⟩
    · intro _ rest
      have hread := decodesKey_readGroup k rest
      rw [flatMap_escapeChar_numeral] at hread
      rw [hread]
      rfl
    · intro k' hk
      obtain rfl := Option.some.inj hk
      have hread := readQuoted_escaped (numeral k.toNat) []
      rw [flatMap_escapeChar_numeral] at hread
      rw [unescaped?, hread]
      rfl
  · refine ⟨none, ?_, nofun⟩
    intro hbody rest
    apply Except.toOption_eq_none
    rintro ⟨k, t⟩ hread
    have hdigits : ∀ c ∈ (numeral k.toNat).toList, c.isDigit = true := by
      obtain ⟨d, ds, heq, hds, -⟩ := numeral_eq_cons k.toNat
      rwa [heq]
    exact hnumeral ⟨k, digits_eq_of_quote hbody hdigits (readGroup_eq_ok hread)⟩

end InjectionGrammar
