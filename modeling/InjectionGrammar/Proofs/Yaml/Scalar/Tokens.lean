import InjectionGrammar.Proofs.Yaml.Scalar.Block
import InjectionGrammar.Proofs.Yaml.Scalar.Plain
import InjectionGrammar.Proofs.Yaml.Scalar.SingleQuoted

/-! Scalars of each style as tokens. -/
namespace InjectionGrammar
namespace Yaml
namespace Lexer
variable {l : Lexer} {c : Char} {s t rest : List Char}

theorem readToken_doubleQuoted {text : String} {body : List Char} (hfree : l.Free)
    (hcolumn : l.columns.head? ≠ some l.cursor.mark.column) (hbody : IsBody text.toList body)
    (hrest : l.cursor.rest = '"' :: (body ++ '"' :: rest)) :
    l.readToken = some ((l.noted.setKeyAllowed false).push (.scalar text .doubleQuoted)
      ⟨l.cursor.mark.advance ('"' :: (body ++ ['"'])), rest⟩) := by
  have hread : l.readToken = l.readQuoted .doubleQuoted := by
    simp [readToken, hrest, atDocumentMark_of_ne]
  have hbody' : readDoubleQuoted .none 0 0 (l.cursor.mark.next '"') (body ++ '"' :: rest) =
      some (text.toList, ⟨(l.cursor.mark.next '"').advance (body ++ ['"']), rest⟩) :=
    readDoubleQuoted_body hbody rfl (Nat.succ_ne_zero _)
  rw [hread, readQuoted, saveKey_of_free hfree hcolumn]
  simp [Cursor.drop, hrest, hbody', Lexer.noted, Mark.advance_cons]

theorem readToken_singleQuoted {text : String} (hfree : l.Free)
    (hcolumn : l.columns.head? ≠ some l.cursor.mark.column) (htext : IsSingleQuotable text.toList)
    (hend : rest.head? ≠ some '\'')
    (hrest : l.cursor.rest =
      '\'' :: (Scalar.singleQuotedChars false text.toList ++ '\'' :: rest)) :
    ∃ m : Mark, l.cursor.mark.line ≤ m.line ∧ l.readToken =
      some ((l.noted.setKeyAllowed false).push (.scalar text .singleQuoted) ⟨m, rest⟩) := by
  have hread : l.readToken = l.readQuoted .singleQuoted := by
    simp [readToken, hrest, atDocumentMark_of_ne]
  have hplace : Gap.none.isBroken = false → (l.cursor.mark.next '\'').column ≠ 0 := fun _ =>
    Nat.succ_ne_zero _
  obtain ⟨m, hline, hchars⟩ :=
    readSingleQuoted_chars htext (show Keeps .none _ from trivial) hplace hend
  refine ⟨m, hline, ?_⟩
  rw [show Gap.isBroken .none = false from rfl] at hchars
  rw [hread, readQuoted, saveKey_of_free hfree hcolumn]
  simp [Cursor.drop, hrest, Lexer.noted, Mark.advance_cons, hchars, Gap.text]

theorem readToken_eq_plain (h : Scalar.allowsPlain (c :: s) = true) (hflow : l.inFlow = false)
    (hmark : l.cursor.mark.column ≠ 0 ∨ c ≠ '-' ∧ c ≠ '.')
    (hrest : l.cursor.rest = c :: (s ++ rest)) : l.readToken = l.readPlainToken := by
  obtain ⟨hspace, hindicators, hgoes⟩ := head_of_allowsPlain h
  simp only [Scalar.indicators, List.mem_cons, List.not_mem_nil, or_false, not_or] at hindicators
  have hdocument : ¬(l.cursor.mark.column = 0 ∧ atDocumentMark (c :: (s ++ rest)) = true) := by
    rintro ⟨hcolumn, hdocument⟩
    rcases hmark with hmark | ⟨hdash, hdot⟩
    · exact hmark hcolumn
    · rw [atDocumentMark_of_ne hdash hdot] at hdocument
      cases hdocument
  have hblank : ∀ x ∈ ['?', ':', '-'], ¬(c = x ∧ atBlank (s ++ rest) = true) := by
    rintro x hx ⟨rfl, hblank⟩
    rw [hgoes hx rest] at hblank
    cases hblank
  have hplain : startsPlain false c (s ++ rest) = true := by
    by_cases hc : c ∈ ['?', ':', '-']
    · have hatBlank := hgoes hc rest
      simp only [List.mem_cons, List.not_mem_nil, or_false] at hc
      rcases hc with rfl | rfl | rfl <;> simp [startsPlain, hatBlank]
    · simp only [List.mem_cons, List.not_mem_nil, or_false, not_or] at hc
      simp [startsPlain, isIndicator, hspace, hindicators, hc]
  unfold readToken
  rw [hrest]
  simp [hindicators, hdocument, hblank, hplain, hflow]

theorem readToken_literal {text : String} (hkey : l.key = none) (hflow : l.inFlow = false)
    (hcolumns : l.columns = [0]) (htext : ∀ c ∈ text.toList, Scalar.isPrintable c = true)
    (hne : text.toList ≠ []) (hstart : StartsLine rest)
    (hrest : l.cursor.rest = '|' :: (Scalar.literalHints text.toList ++ '\n' ::
      (Scalar.literalChars true text.toList ++
        endLine (text.toList.foldl gapAfter (some ⟨none, []⟩)) rest))) :
    ∃ m : Mark, m.column = 0 ∧ l.readToken =
      some ((l.setKeyAllowed true).push (.scalar text .literal) ⟨m, rest⟩) := by
  have hread : l.readToken = l.readBlockToken false := by
    simp [readToken, hrest, atDocumentMark_of_ne, hflow]
  obtain ⟨m, hm, hblock⟩ := readBlock_literal htext hne hstart (l.cursor.mark.advance ['|'])
  refine ⟨m, hm, ?_⟩
  rw [hread, readBlockToken]
  simp [dropKey_of_none hkey, hcolumns, Cursor.drop, hrest, hblock]

end Lexer
end Yaml
end InjectionGrammar
