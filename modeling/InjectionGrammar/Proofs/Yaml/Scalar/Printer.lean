import InjectionGrammar.Proofs.Yaml.Scalar.Block
import InjectionGrammar.Proofs.Yaml.Scalar.Plain
import InjectionGrammar.Proofs.Yaml.Scalar.SingleQuoted
import Mathlib.Data.List.Basic

/-! How a string is printed, and what the choice of a style says about it. -/
namespace InjectionGrammar
namespace Yaml
namespace Scalar
variable {v : String} {s : List Char} {style : Style}

/-- The string is printed in this style, and fit for it. -/
inductive Prints (v : String) : Style → Prop where
  | plain (hstring : readsAsString v = true) (h : allowsPlain v.toList = true)
      (hprint : print v = v.toList ++ ['\n']) : Prints v .plain
  | singleQuoted (h : IsSingleQuotable v.toList)
      (hprint : print v = '\'' :: (singleQuotedChars false v.toList ++ ['\'', '\n'])) :
      Prints v .singleQuoted
  | doubleQuoted (hprint : print v = '"' :: (v.toList.flatMap escapeChar ++ ['"', '\n'])) :
      Prints v .doubleQuoted
  | literal (h : ∀ c ∈ v.toList, isPrintable c = true) (hne : v.toList ≠ [])
      (hprint : ∀ rest, print v ++ rest = '|' :: (literalHints v.toList ++ '\n' ::
        (literalChars true v.toList ++
          endLine (v.toList.foldl gapAfter (some ⟨none, []⟩)) rest))) : Prints v .literal

/-- The last line is ended if the text does not end it. -/
theorem endLine_foldl (hs : ∀ c ∈ s, isPrintable c = true) (hne : s ≠ []) (rest : List Char) :
    (if s.getLast?.any isAnyBreak then [] else ['\n']) ++ rest =
      endLine (s.foldl gapAfter (some ⟨none, []⟩)) rest := by
  rw [← List.dropLast_append_getLast hne]
  have hany := isAnyBreak_of_isPrintable (hs _ (List.getLast_mem hne))
  rw [List.getLast?_concat, List.foldl_concat, Option.any_some, endLine, isSome_gapAfter, hany]
  cases isBreak (s.getLast hne) <;> rfl

theorem prints_styleOf (v : String) : Prints v (styleOf v) := by
  by_cases hfeed : v.toList.contains '\n' = true
  · by_cases hliteral : allowsLiteral v.toList = true
    · have hstyle : styleOf v = .literal := by simp only [styleOf, hfeed, hliteral, if_true]
      have hne : v.toList ≠ [] := List.ne_nil_of_mem (List.contains_iff_mem.1 hfeed)
      have hprintable : ∀ c ∈ v.toList, isPrintable c = true := by
        simp only [allowsLiteral, needsEscape, Bool.and_eq_true, Bool.not_eq_true',
          Bool.or_eq_false_iff, List.any_eq_false] at hliteral
        exact fun c hc => by simpa using hliteral.1.1 c hc
      rw [hstyle]
      refine .literal hprintable hne fun rest => ?_
      rw [print, hstyle]
      simp [← endLine_foldl hprintable hne]
    · have hstyle : styleOf v = .doubleQuoted := by
        simp only [styleOf, hfeed, hliteral, Bool.false_eq_true, if_false, if_true]
      rw [hstyle]
      exact .doubleQuoted (by rw [print, hstyle])
  · rw [Bool.not_eq_true] at hfeed
    by_cases hplain : (readsAsString v && allowsPlain v.toList) = true
    · have hstyle : styleOf v = .plain := by
        simp only [styleOf, hfeed, hplain, Bool.false_eq_true, if_false, if_true]
      rw [hstyle]
      exact .plain (Bool.and_eq_true_iff.1 hplain).1 (Bool.and_eq_true_iff.1 hplain).2
        (by rw [print, hstyle])
    · by_cases hsingle : allowsSingleQuotes v.toList = true
      · have hstyle : styleOf v = .singleQuoted := by
          simp only [styleOf, hfeed, hplain, hsingle, Bool.false_eq_true, if_false, if_true]
        rw [hstyle]
        exact .singleQuoted (isSingleQuotable_of_allows hsingle hfeed) (by rw [print, hstyle])
      · have hstyle : styleOf v = .doubleQuoted := by
          simp only [styleOf, hfeed, hplain, hsingle, Bool.false_eq_true, if_false]
        rw [hstyle]
        exact .doubleQuoted (by rw [print, hstyle])

theorem print_ne_nil (v : String) : print v ≠ [] := by
  unfold print
  cases styleOf v <;> simp

/-! The characters of what is printed. -/

theorem mem_singleQuotedChars {atLineStart : Bool} {c : Char}
    (h : c ∈ singleQuotedChars atLineStart s) : c ∈ s ∨ c = ' ' ∨ c = '\'' := by
  induction s generalizing atLineStart with
  | nil =>
    cases atLineStart with
    | true => exact .inr (.inl (by simpa [singleQuotedChars, indentation] using h))
    | false => cases h
  | cons d s ih =>
    rw [singleQuotedChars] at h
    split at h
    · grind
    · grind [indentation]

theorem mem_literalChars {atLineStart : Bool} {c : Char} (h : c ∈ literalChars atLineStart s) :
    c ∈ s ∨ c = ' ' := by
  induction s generalizing atLineStart with
  | nil => cases h
  | cons d s ih =>
    rw [literalChars] at h
    split at h
    · grind
    · grind [indentation]

theorem isPrintable_of_allowsPlain (h : allowsPlain s = true) :
    ∀ c ∈ s, isPrintable c = true := by
  simp only [allowsPlain, needsEscape, Bool.and_eq_true, Bool.not_eq_true', Bool.or_eq_false_iff,
    List.any_eq_false] at h
  exact fun c hc => by simpa using h.1.1.1.1.1 c hc

theorem isKept_of_mem_print {c : Char} (hc : c ∈ print v) : isKept c = true := by
  have hprints := prints_styleOf v
  generalize styleOf v = style at hprints
  cases hprints with
  | plain _ h hprint =>
    rw [hprint] at hc
    rcases List.mem_append.1 hc with hc | hc
    · exact isKept_of_isPrintable (isPrintable_of_allowsPlain h c hc)
    · obtain rfl := List.mem_singleton.1 hc
      decide
  | singleQuoted h hprint =>
    simp only [hprint, List.mem_cons, List.mem_append, List.not_mem_nil, or_false] at hc
    rcases hc with rfl | hc | rfl | rfl
    · decide
    · rcases mem_singleQuotedChars hc with hc | rfl | rfl
      · exact isKept_of_isPrintable (h.printable c hc)
      · decide
      · decide
    · decide
    · decide
  | doubleQuoted hprint =>
    simp only [hprint, List.mem_cons, List.mem_append, List.not_mem_nil, or_false] at hc
    rcases hc with rfl | hc | rfl | rfl
    · decide
    · exact isKept_of_isBody (isBody_flatMap spells_escapeChar v.toList) c hc
    · decide
    · decide
  | literal h hne hprint =>
    rw [← List.append_nil (print v), hprint] at hc
    have hhints : ∀ c ∈ literalHints v.toList, isKept c = true := by
      obtain ⟨k, hhint, -⟩ := exists_chomping none h hne
      rw [literalHints_eq, hhint]
      refine List.all_eq_true.1 ?_
      cases hidesIndentation v.toList <;> cases k <;> decide
    have hend : ∀ c ∈ endLine (v.toList.foldl gapAfter (some ⟨none, []⟩)) [], isKept c = true := by
      unfold endLine
      split
      · nofun
      · simp; decide
    simp only [List.mem_cons, List.mem_append] at hc
    rcases hc with rfl | hc | rfl | hc | hc
    · decide
    · exact hhints c hc
    · decide
    · rcases mem_literalChars hc with hc | rfl
      · exact isKept_of_isPrintable (h c hc)
      · decide
    · exact hend c hc

/-- A string that reads as itself is not taken for nothing. -/
theorem present_of_readsAsString (h : readsAsString v = true) :
    v.isEmpty = false ∧ isNull v = false := by
  cases hnull : v.isEmpty || isNull v with
  | false => exact Bool.or_eq_false_iff.1 hnull
  | true =>
    have hresolve : resolvePlain v = .null := by rw [resolvePlain, if_pos hnull]
    simp [readsAsString, hresolve] at h

theorem ne_nil_of_readsAsString (h : readsAsString v = true) : v.toList ≠ [] := by
  have hpresent := (present_of_readsAsString h).1
  simpa [String.isEmpty_iff] using hpresent

theorem isSolid_of_allowsPlain {c : Char} (h : allowsPlain (c :: s) = true) :
    Lexer.isSolid c = true := by
  obtain ⟨hspace, hindicators, -⟩ := head_of_allowsPlain h
  have hbreak := (isPlainText_of_allowsPlain h).unbroken c List.mem_cons_self
  have hcomment : c ≠ '#' := by
    rintro rfl
    exact hindicators (by decide)
  have hmark : c ≠ '\ufeff' := by
    rintro rfl
    exact absurd (isPrintable_of_allowsPlain h _ List.mem_cons_self) (by decide)
  simp [Lexer.isSolid, hspace, hbreak, hcomment, hmark]

theorem isSolid_head_print (v : String) (rest : List Char) :
    (print v ++ rest).head?.all Lexer.isSolid = true := by
  have hprints := prints_styleOf v
  generalize styleOf v = style at hprints
  cases hprints with
  | plain hstring h hprint =>
    rw [hprint]
    obtain ⟨c, s, hv⟩ := List.exists_cons_of_ne_nil (ne_nil_of_readsAsString hstring)
    rw [hv] at h ⊢
    exact isSolid_of_allowsPlain h
  | singleQuoted h hprint =>
    rw [hprint]
    exact show Lexer.isSolid '\'' = true by decide
  | doubleQuoted hprint =>
    rw [hprint]
    exact show Lexer.isSolid '"' = true by decide
  | literal h hne hprint =>
    rw [hprint]
    exact show Lexer.isSolid '|' = true by decide

end Scalar
end Yaml
end InjectionGrammar
