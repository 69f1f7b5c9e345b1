import InjectionGrammar.Proofs.Yaml.Lexing
import Mathlib.Tactic.Ring
import InjectionGrammar.Yaml.Scalar.Printer

/-! What stands between double quotes, by the text that it spells. Every text can be spelled with
printable ASCII characters alone. -/
namespace InjectionGrammar
namespace Yaml

/-- The number of hexadecimal digits behind others. -/
def hexFrom (code : Nat) : List Char → Option Nat
  | [] => some code
  | c :: cs => (hexValue? c).bind fun d => hexFrom (code * 16 + d) cs

/-- How a character is written between double quotes: as it is, by a letter, or by its code. -/
inductive Spells (c : Char) : List Char → Prop where
  | plain (hprint : Scalar.isPrintable c = true) (hbreak : isBreak c = false) (hquote : c ≠ '"')
      (hslash : c ≠ '\\') : Spells c [c]
  | letter {e : Char} (he : unescape? e = some c) : Spells c ['\\', e]
  | code {e : Char} {ds : List Char} (he : codeLength? e = some ds.length)
      (hds : hexFrom 0 ds = some c.toNat) : Spells c ('\\' :: e :: ds)

/-- What is written for a text between double quotes. -/
inductive IsBody : List Char → List Char → Prop where
  | nil : IsBody [] []
  | cons {c : Char} {cs s body : List Char} (hc : Spells c cs) (h : IsBody s body) :
      IsBody (c :: s) (cs ++ body)

variable {c e : Char} {cs ds s body rest : List Char} {gap : Gap} {m : Mark} {n code : Nat}

theorem Gap.isBroken_blank (h : gap.isBroken = false) : (gap.blank c).isBroken = false := by
  cases gap <;> simp_all [Gap.blank, Gap.isBroken]

theorem Gap.text_blank (h : gap.isBroken = false) : (gap.blank c).text = gap.text ++ [c] := by
  cases gap <;> simp_all [Gap.blank, Gap.isBroken, Gap.text]

theorem charOfCode?_toNat (c : Char) : charOfCode? c.toNat = some c := by
  have hvalid : c.toNat.isValidChar := c.valid
  rw [charOfCode?, if_pos hvalid, Char.ofNat_toNat]

theorem isBreak_of_unescape? (h : unescape? e = some c) : isBreak e = false := by
  rw [← Bool.not_eq_true]
  intro hb
  simp only [isBreak, isSeparator, Bool.or_eq_true, decide_eq_true_eq] at hb
  have hnone : unescape? '\n' = none ∧ unescape? '\u2028' = none ∧ unescape? '\u2029' = none := by
    decide
  rcases hb with rfl | rfl | rfl <;> simp [hnone] at h

theorem letter_of_codeLength? (h : codeLength? e = some n) :
    isBreak e = false ∧ unescape? e = none ∧ 0 < n := by
  unfold codeLength? at h
  split at h
  · subst_vars
    cases h
    decide
  · split at h
    · subst_vars
      cases h
      decide
    · split at h
      · subst_vars
        cases h
        decide
      · cases h

/-- Behind a code its character is put before what follows. -/
theorem readDoubleQuoted_digits (hne : ds ≠ []) (h : hexFrom code ds = some c.toNat) :
    readDoubleQuoted .none ds.length code m (ds ++ rest) =
      consText [c] (readDoubleQuoted .none 0 0 (m.advance ds) rest) := by
  induction ds generalizing code m with
  | nil => exact absurd rfl hne
  | cons d ds ih =>
    obtain ⟨v, hv, h⟩ := Option.bind_eq_some_iff.1 h
    rw [List.length_cons, List.cons_append, readDoubleQuoted.eq_def, Mark.advance_cons]
    simp only [hv]
    cases ds with
    | nil =>
      rw [Option.some.inj h]
      simp [charOfCode?_toNat c]
    | cons d' ds => exact ih (List.cons_ne_nil _ _) h

theorem readDoubleQuoted_spelled (hc : Spells c cs) (hm : m.column ≠ 0) :
    readDoubleQuoted gap 0 0 m (cs ++ rest) =
      if isSpaceOrTab c ∧ cs = [c] then readDoubleQuoted (gap.blank c) 0 0 (m.advance cs) rest
      else consText (gap.text ++ [c]) (readDoubleQuoted .none 0 0 (m.advance cs) rest) := by
  have hslash : isSpaceOrTab '\\' = false ∧ isBreak '\\' = false := by decide
  cases hc with
  | plain _ hbreak hquote hescape =>
    rw [List.singleton_append, readDoubleQuoted.eq_def, Mark.advance_cons, Mark.advance_nil]
    by_cases hblank : isSpaceOrTab c = true <;> simp [hblank, hbreak, hm, hquote, hescape]
  | @letter e he =>
    rw [List.cons_append, List.singleton_append, readDoubleQuoted.eq_def, Mark.advance_cons,
      Mark.advance_cons, Mark.advance_nil]
    simp [hslash, hm, isBreak_of_unescape? he, he]
  | @code e ds he hds =>
    obtain ⟨hbreak, hletter, hpos⟩ := letter_of_codeLength? he
    have hne := List.ne_nil_of_length_pos hpos
    rw [List.cons_append, List.cons_append, readDoubleQuoted.eq_def, Mark.advance_cons,
      Mark.advance_cons]
    simp [hslash, hm, hbreak, hletter, he, readDoubleQuoted_digits hne hds, consText,
      Function.comp_def]

/-- What follows the first quote is read up to the second one. The induction is on what is written;
blanks are held back until the next character that shows. -/
theorem readDoubleQuoted_body (h : IsBody s body) (hgap : gap.isBroken = false)
    (hm : m.column ≠ 0) :
    readDoubleQuoted gap 0 0 m (body ++ '"' :: rest) =
      some (gap.text ++ s, ⟨m.advance (body ++ ['"']), rest⟩) := by
  induction h generalizing gap m with
  | nil =>
    rw [List.nil_append, readDoubleQuoted.eq_def, List.nil_append, Mark.advance_cons,
      Mark.advance_nil, List.append_nil]
    simp [show isSpaceOrTab '"' = false ∧ isBreak '"' = false by decide, hm]
  | @cons c cs s body hc h ih =>
    have hm' : (m.advance cs).column ≠ 0 := by simp only [Mark.advance]; omega
    rw [List.append_assoc, readDoubleQuoted_spelled hc hm, List.append_assoc,
      Mark.advance_append]
    split
    · rw [ih (Gap.isBroken_blank hgap) hm', Gap.text_blank hgap, List.append_assoc]
      rfl
    · rw [ih rfl hm', consText]
      simp [Gap.text]

/-! What is written holds nothing that the text around it could be misread by. -/

theorem isKept_of_hexValue? {v : Nat} (h : hexValue? c = some v) : isKept c = true := by
  have hc : 0x30 ≤ c.toNat ∧ c.toNat ≤ 0x66 := by
    unfold hexValue? at h
    split at h
    · next hd => exact ⟨hd.1, Nat.le_trans hd.2 (by decide)⟩
    · split at h
      · next hd => exact ⟨Nat.le_trans (by decide) hd.1, hd.2⟩
      · split at h
        · next hd => exact ⟨Nat.le_trans (by decide) hd.1, Nat.le_trans hd.2 (by decide)⟩
        · cases h
  exact isKept_of_ascii (by omega) (by omega)

theorem isKept_of_hexFrom (h : hexFrom code ds = some n) : ∀ x ∈ ds, isKept x = true := by
  induction ds generalizing code with
  | nil => nofun
  | cons d ds ih =>
    obtain ⟨v, hv, h⟩ := Option.bind_eq_some_iff.1 h
    intro x hx
    rcases List.mem_cons.1 hx with rfl | hx
    · exact isKept_of_hexValue? hv
    · exact ih h x hx

theorem mem_of_unescape? (h : unescape? e = some c) :
    e ∈ ['0', 'a', 'b', 't', '\t', 'n', 'v', 'f', 'r', 'e', ' ', '"', '/', '\\', 'N', '_', 'L',
      'P'] := by
  by_contra hmem
  simp only [List.mem_cons, List.not_mem_nil, or_false, not_or] at hmem
  simp [unescape?, hmem] at h

theorem isKept_of_spells (hc : Spells c cs) : ∀ x ∈ cs, isKept x = true := by
  have hslash : isKept '\\' = true := by decide
  cases hc with
  | plain hprint hbreak _ _ =>
    intro x hx
    rw [List.mem_singleton.1 hx]
    exact isKept_of_isPrintable hprint
  | letter he =>
    have hletters : ∀ x ∈ ['0', 'a', 'b', 't', '\t', 'n', 'v', 'f', 'r', 'e', ' ', '"', '/', '\\',
      'N', '_', 'L', 'P'], isKept x = true := List.all_eq_true.1 (by decide)
    simp [hslash, hletters _ (mem_of_unescape? he)]
  | @code e ds he hds =>
    have hmarks : ∀ x ∈ ['x', 'u', 'U'], isKept x = true := List.all_eq_true.1 (by decide)
    have hmem : e ∈ ['x', 'u', 'U'] := by
      unfold codeLength? at he
      grind
    simp only [List.mem_cons, forall_eq_or_imp]
    exact ⟨hslash, hmarks e hmem, isKept_of_hexFrom hds⟩

theorem isKept_of_isBody (h : IsBody s body) : ∀ x ∈ body, isKept x = true := by
  induction h with
  | nil => nofun
  | cons hc _ ih =>
    intro x hx
    rcases List.mem_append.1 hx with hx | hx
    · exact isKept_of_spells hc x hx
    · exact ih x hx

/-! Texts as they are printed. -/

theorem hexValue?_upperHexDigit : ∀ n < 16, hexValue? (Scalar.upperHexDigit n) = some n := by
  decide

theorem hexFrom_append : hexFrom code (cs ++ ds) = (hexFrom code cs).bind (hexFrom · ds) := by
  induction cs generalizing code with
  | nil => rfl
  | cons c cs ih =>
    rw [List.cons_append, hexFrom, hexFrom, Option.bind_assoc]
    exact congrArg _ (funext fun d => ih)

theorem hexFrom_hexDigits (count : Nat) (h : n < 16 ^ count) :
    hexFrom code (Scalar.hexDigits count n) = some (code * 16 ^ count + n) := by
  induction count generalizing n with
  | zero => simp [Scalar.hexDigits, hexFrom]; omega
  | succ count ih =>
    have hdiv : n / 16 < 16 ^ count := by
      rw [Nat.pow_succ] at h
      omega
    rw [Scalar.hexDigits, hexFrom_append, ih hdiv, Option.bind_some, hexFrom,
      hexValue?_upperHexDigit _ (Nat.mod_lt _ (by decide)), Option.bind_some, hexFrom,
      Option.some.injEq, Nat.pow_succ]
    ring_nf
    omega

theorem length_hexDigits (count n : Nat) : (Scalar.hexDigits count n).length = count := by
  induction count generalizing n with
  | zero => rfl
  | succ count ih => simp [Scalar.hexDigits, ih]

theorem spells_hexDigits {count : Nat} (he : codeLength? e = some count)
    (hcode : c.toNat < 16 ^ count) : Spells c ('\\' :: e :: Scalar.hexDigits count c.toNat) := by
  refine .code (he.trans (congrArg some (length_hexDigits _ _).symm)) ?_
  rw [hexFrom_hexDigits count hcode, Nat.zero_mul, Nat.zero_add]

theorem unescape?_of_escapeLetter? (h : Scalar.escapeLetter? c = some e) :
    unescape? e = some c := by
  have hletters : ['\x00', '\x07', '\x08', '\t', '\n', '\x0b', '\x0c', '\r', '\x1b', '"', '\\',
      '\u0085', '\u2028', '\u2029'].all
        (fun x => (Scalar.escapeLetter? x).bind unescape? == some x) = true := by
    decide
  have hmem : c ∈ ['\x00', '\x07', '\x08', '\t', '\n', '\x0b', '\x0c', '\r', '\x1b', '"', '\\',
      '\u0085', '\u2028', '\u2029'] := by
    by_contra hmem
    simp only [List.mem_cons, List.not_mem_nil, or_false, not_or] at hmem
    simp [Scalar.escapeLetter?, hmem] at h
  have hc := beq_iff_eq.1 (List.all_eq_true.1 hletters c hmem)
  rwa [h, Option.bind_some] at hc

theorem spells_escapeChar (c : Char) : Spells c (Scalar.escapeChar c) := by
  unfold Scalar.escapeChar
  cases h : Scalar.escapeLetter? c with
  | some e => exact .letter (unescape?_of_escapeLetter? h)
  | none =>
    dsimp only
    split
    · next hprint =>
      obtain ⟨hline, hls, hps, hquote, hslash⟩ :
          c ≠ '\n' ∧ c ≠ '\u2028' ∧ c ≠ '\u2029' ∧ c ≠ '"' ∧ c ≠ '\\' := by
        refine ⟨?_, ?_, ?_, ?_, ?_⟩ <;> rintro rfl <;> exact absurd h (by decide)
      exact .plain hprint (by simp [isBreak, isSeparator, hline, hls, hps]) hquote hslash
    · split
      · exact spells_hexDigits rfl (by omega)
      · split
        · exact spells_hexDigits rfl (by omega)
        · have hlt := c.val.toNat_lt_size
          exact spells_hexDigits rfl hlt

theorem isBody_flatMap {write : Char → List Char} (hwrite : ∀ c, Spells c (write c))
    (s : List Char) : IsBody s (s.flatMap write) := by
  induction s with
  | nil => exact .nil
  | cons c s ih => exact .cons (hwrite c) ih

end Yaml
end InjectionGrammar
