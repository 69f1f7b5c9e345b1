import InjectionGrammar.Json
import InjectionGrammar.Json.Reader
import InjectionGrammar.Proofs.Outcome

/-! Strings and numerals are read as they were written. -/
namespace InjectionGrammar

theorem numeral_eq_cons (n : Nat) : ∃ d ds, (numeral n).toList = d :: ds ∧
    (∀ c ∈ d :: ds, c.isDigit = true) ∧ Nat.ofDigitChars 10 (d :: ds) 0 = n := by
  rw [numeral, String.toList_ofList]
  cases h : Nat.toDigits 10 n with
  | nil => exact absurd h Nat.toDigits_ne_nil
  | cons d ds =>
    refine ⟨d, ds, rfl, ?_, ?_⟩
    · intro c hc
      exact Nat.isDigit_of_mem_toDigits (by decide) (by decide) (h ▸ hc)
    · rw [← h, Nat.ofDigitChars_ten_toDigits]

/-- Only the number zero begins with the digit zero. -/
theorem numeral_of_zero {n : Nat} {ds : List Char} (h : (numeral n).toList = '0' :: ds) :
    ds = [] := by
  rw [numeral, String.toList_ofList] at h
  induction n using Nat.strongRecOn generalizing ds with
  | ind n ih =>
    by_cases hn : n < 10
    · rw [Nat.toDigits_of_lt_base hn] at h
      simp_all
    · have hpos : 0 < n / 10 := by omega
      rw [Nat.toDigits_of_base_le (by decide) (by omega)] at h
      cases hq : Nat.toDigits 10 (n / 10) with
      | nil => exact absurd hq Nat.toDigits_ne_nil
      | cons d es =>
        rw [hq, List.cons_append, List.cons.injEq] at h
        obtain ⟨rfl, -⟩ := h
        have hes := ih (n / 10) (by omega) hq
        have hval := Nat.ofDigitChars_ten_toDigits (n := n / 10)
        rw [hq, hes] at hval
        simp [Nat.ofDigitChars] at hval
        omega

namespace Json
variable {s rest : List Char}

theorem hexValue?_hexDigit : ∀ n < 16, hexValue? (hexDigit n) = some n := by
  decide

theorem readChars_quote (s : List Char) : readChars ('"' :: s) = .ok ([], s) := by
  rw [readChars.eq_def]
  rfl

theorem readChars_short {c x : Char} (hc : c ≠ 'u') (hx : unescape? c = some x) (s : List Char) :
    readChars ('\\' :: c :: s) = consChar x (readChars s) := by
  rw [readChars.eq_def]
  simp [hc, hx]

theorem readChars_code {a b c d : Char} {n : Nat} (h : hexValue4? a b c d = some n)
    (hn : n < 0xd800) (s : List Char) :
    readChars ('\\' :: 'u' :: a :: b :: c :: d :: s) = consChar (Char.ofNat n) (readChars s) := by
  have htrail : isTrailing n = false := by
    simp only [isTrailing, Bool.and_eq_false_iff, decide_eq_false_iff_not]
    omega
  have hlead : isLeading n = false := by
    simp only [isLeading, Bool.and_eq_false_iff, decide_eq_false_iff_not]
    omega
  rw [readChars.eq_def]
  simp [h, htrail, hlead]

theorem readChars_plain {c : Char} (h1 : c ≠ '"') (h2 : c ≠ '\\') (h3 : ¬c.toNat < 0x20)
    (s : List Char) : readChars (c :: s) = consChar c (readChars s) := by
  rw [readChars.eq_def]
  simp [h1, h2, h3]

theorem hexValue4?_control {n : Nat} (h : n < 0x20) :
    hexValue4? '0' '0' (hexDigit (n / 16)) (hexDigit (n % 16)) = some n := by
  have h0 : hexValue? '0' = some 0 := by decide
  simp only [hexValue4?, h0, hexValue?_hexDigit (n / 16) (by omega),
    hexValue?_hexDigit (n % 16) (by omega), Option.bind_eq_bind, Option.bind_some,
    Option.pure_def, Option.some.injEq]
  omega

/-- A character is read back from its escaped form. -/
theorem readChars_escapeChar (c : Char) (s : List Char) :
    readChars (escapeChar c ++ s) = consChar c (readChars s) := by
  unfold escapeChar
  iterate 7
    split
    · subst_vars
      exact readChars_short (by decide) (by decide) s
  split
  · next hc =>
    exact (readChars_code (hexValue4?_control hc) (by omega) s).trans (by rw [Char.ofNat_toNat])
  · next h1 h2 _ _ _ _ _ h3 => exact readChars_plain h1 h2 h3 s

theorem readChars_flatMap (s rest : List Char) :
    readChars (s.flatMap escapeChar ++ '"' :: rest) = .ok (s, rest) := by
  induction s with
  | nil => exact readChars_quote rest
  | cons c s ih =>
    rw [List.flatMap_cons, List.append_assoc, readChars_escapeChar, ih]
    rfl

/-- What follows the first quote is read up to the second one. -/
theorem readQuoted_escaped (s : String) (rest : List Char) :
    readQuoted (s.toList.flatMap escapeChar ++ '"' :: rest) = .ok (s, rest) := by
  rw [readQuoted, readChars_flatMap, Except.map, String.ofList_toList]

theorem quote_append (s : String) (rest : List Char) :
    quote s ++ rest = '"' :: (s.toList.flatMap escapeChar ++ '"' :: rest) := by
  simp [quote]

theorem escapeChar_of_isDigit {c : Char} (h : c.isDigit = true) : escapeChar c = [c] := by
  have hc : 48 ≤ c.toNat ∧ c.toNat ≤ 57 := by
    simpa [Char.isDigit, UInt32.le_iff_toNat_le] using h
  unfold escapeChar
  repeat' split
  all_goals first
    | rfl
    | omega
    | (subst_vars; exact absurd hc (by decide))

theorem flatMap_escapeChar_numeral (n : Nat) :
    (numeral n).toList.flatMap escapeChar = (numeral n).toList := by
  obtain ⟨d, ds, heq, hd, -⟩ := numeral_eq_cons n
  rw [heq]
  have hmap : ∀ cs : List Char, (∀ c ∈ cs, c.isDigit = true) → cs.flatMap escapeChar = cs := by
    intro cs hcs
    induction cs with
    | nil => rfl
    | cons c cs ih =>
      rw [List.flatMap_cons, escapeChar_of_isDigit (hcs c List.mem_cons_self),
        ih fun x hx => hcs x (List.mem_cons_of_mem _ hx)]
      rfl
  exact hmap _ hd

theorem le_ofDigitChars (ds : List Char) (n : Nat) : n ≤ Nat.ofDigitChars 10 ds n := by
  induction ds generalizing n with
  | nil => simp
  | cons d ds ih =>
    rw [Nat.ofDigitChars_cons]
    exact Nat.le_trans (by omega) (ih _)

/-- Digits are taken up whole where the number that they form is below the limit. -/
theorem appendDigits_of_lt {limit n : Nat} {ds : List Char}
    (h : Nat.ofDigitChars 10 ds n < limit) :
    appendDigits limit n ds = (Nat.ofDigitChars 10 ds n, []) := by
  induction ds generalizing n with
  | nil => rfl
  | cons d ds ih =>
    rw [Nat.ofDigitChars_cons] at h ⊢
    have hd : n * 10 + digitValue d = 10 * n + (d.toNat - '0'.toNat) := by
      change n * 10 + (d.toNat - 48) = 10 * n + (d.toNat - 48)
      omega
    rw [appendDigits, hd, if_pos (Nat.lt_of_le_of_lt (le_ofDigitChars ds _) h), ih h]

/-- A numeral before a quote is the number. -/
theorem readNumber_numeral {n : Nat} (h : n < UInt64.size) (rest : List Char) :
    readNumber false ((numeral n).toList ++ '"' :: rest) = .ok (.integer n, '"' :: rest) := by
  obtain ⟨d, ds, heq, hd, hval⟩ := numeral_eq_cons n
  have htake : ((d :: ds) ++ '"' :: rest).takeWhile Char.isDigit = d :: ds := by
    rw [List.takeWhile_append_of_pos hd]
    simp
  have hdrop : ((d :: ds) ++ '"' :: rest).dropWhile Char.isDigit = '"' :: rest := by
    rw [List.dropWhile_append_of_pos hd]
    rfl
  have hzero : ¬(d = '0' ∧ 1 < (d :: ds).length) := by
    rintro ⟨rfl, hlen⟩
    rw [numeral_of_zero heq] at hlen
    exact absurd hlen (by decide)
  have hdigits : appendDigits UInt64.size 0 (d :: ds) = (n, []) := by
    rw [appendDigits_of_lt (by rw [hval]; exact h), hval]
  rw [heq]
  unfold readNumber
  rw [List.cons_append] at htake hdrop ⊢
  simp only [htake, hdrop, hdigits, hd d List.mem_cons_self, if_neg hzero]
  rfl

end Json
end InjectionGrammar
