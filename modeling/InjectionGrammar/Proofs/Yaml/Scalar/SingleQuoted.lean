import InjectionGrammar.Proofs.Yaml.Scalar.Quoted

/-! Texts that are written between single quotes. Their only breaks are separators, which stay
themselves. -/
namespace InjectionGrammar
namespace Yaml
variable {c d : Char} {cs s rest : List Char} {gap : Gap} {m : Mark}

/-- What single quotes can hold: no line feed, and no blank beside a break. -/
structure IsSingleQuotable (s : List Char) : Prop where
  printable : ∀ c ∈ s, Scalar.isPrintable c = true
  feed : ∀ c ∈ s, c ≠ '\n'
  before : Scalar.hasPair Scalar.isSpace Scalar.isAnyBreak s = false
  behind : Scalar.hasPair Scalar.isAnyBreak Scalar.isSpace s = false

theorem isSingleQuotable_of_allows (h : Scalar.allowsSingleQuotes s = true)
    (hfeed : s.contains '\n' = false) : IsSingleQuotable s := by
  simp only [Scalar.allowsSingleQuotes, Scalar.needsEscape, Bool.and_eq_true, Bool.not_eq_true',
    Bool.or_eq_false_iff, List.any_eq_false] at h
  obtain ⟨⟨hprint, hbefore⟩, hbehind⟩ := h
  refine ⟨fun c hc => by simpa using hprint c hc, fun c hc => ?_, hbefore, hbehind⟩
  rintro rfl
  simp [hc] at hfeed

theorem IsSingleQuotable.tail (h : IsSingleQuotable (c :: s)) : IsSingleQuotable s where
  printable x hx := h.printable x (List.mem_cons_of_mem c hx)
  feed x hx := h.feed x (List.mem_cons_of_mem c hx)
  before := by
    have hbefore := h.before
    cases s with
    | nil => rfl
    | cons d s =>
      simp only [Scalar.hasPair, Bool.or_eq_false_iff] at hbefore
      exact hbefore.2
  behind := by
    have hbehind := h.behind
    cases s with
    | nil => rfl
    | cons d s =>
      simp only [Scalar.hasPair, Bool.or_eq_false_iff] at hbehind
      exact hbehind.2

/-- The gap keeps what it took in when this text follows: no break comes behind blanks, no blank
behind breaks, and the first break is no line feed. -/
def Keeps (gap : Gap) (s : List Char) : Prop :=
  match gap with
  | .none => True
  | .blanks _ => ∀ c ∈ s.head?, isBreak c = false
  | .breaks first _ => first ≠ some '\n' ∧ ∀ c ∈ s.head?, c ≠ ' '

theorem readSingleQuoted_blank :
    readSingleQuoted gap m (' ' :: s) = readSingleQuoted (gap.blank ' ') (m.next ' ') s := by
  have hspace : isSpaceOrTab ' ' = true := by decide
  rw [readSingleQuoted.eq_def]
  simp [hspace]

theorem readSingleQuoted_break (hspace : isSpaceOrTab c = false) (hbreak : isBreak c = true) :
    readSingleQuoted gap m (c :: s) = readSingleQuoted (gap.newline c) m.nextLine s := by
  rw [readSingleQuoted.eq_def]
  simp [hspace, hbreak]

theorem readSingleQuoted_end (hm : m.column ≠ 0) (hrest : rest.head? ≠ some '\'') :
    readSingleQuoted gap m ('\'' :: rest) = some (gap.text, ⟨m.next '\'', rest⟩) := by
  have hquote : isSpaceOrTab '\'' = false ∧ isBreak '\'' = false := by decide
  rw [readSingleQuoted.eq_def]
  cases rest with
  | nil => simp [hquote, hm]
  | cons d rest =>
    have hd : d ≠ '\'' := fun hd => hrest (congrArg some hd)
    simp [hquote, hm, hd]

theorem readSingleQuoted_shown (gap : Gap) (hm : m.column ≠ 0) (hspace : isSpaceOrTab c = false)
    (hbreak : isBreak c = false) : ∃ m' : Mark, m'.column ≠ 0 ∧ m'.line = m.line ∧
      readSingleQuoted gap m ((if c = '\'' then ['\'', '\''] else [c]) ++ s) =
        consText (gap.text ++ [c]) (readSingleQuoted .none m' s) := by
  by_cases hc : c = '\''
  · subst hc
    refine ⟨(m.next '\'').next '\'', Nat.succ_ne_zero _, rfl, ?_⟩
    rw [if_pos rfl, List.cons_append, List.singleton_append, readSingleQuoted.eq_def]
    simp [hspace, hbreak, hm]
  · refine ⟨m.next c, Nat.succ_ne_zero _, rfl, ?_⟩
    rw [if_neg hc, List.singleton_append, readSingleQuoted.eq_def]
    simp [hspace, hbreak, hm, hc]

/-- The indentation of a line is passed over. -/
theorem readSingleQuoted_indentation (hm : gap.isBroken = false → m.column ≠ 0) :
    ∃ m' : Mark, m'.column ≠ 0 ∧ m'.line = m.line ∧
      readSingleQuoted gap m ((if gap.isBroken then Scalar.indentation else []) ++ s) =
        readSingleQuoted gap m' s := by
  cases gap with
  | breaks first others =>
    refine ⟨(m.next ' ').next ' ', Nat.succ_ne_zero _, rfl, ?_⟩
    simp [Gap.isBroken, Scalar.indentation, readSingleQuoted_blank, Gap.blank]
  | none => exact ⟨m, hm rfl, rfl, rfl⟩
  | blanks cs => exact ⟨m, hm rfl, rfl, rfl⟩

theorem Gap.text_newline (hc : c ≠ '\n') (hbreak : isBreak c = true) (h : Keeps gap (c :: s)) :
    (gap.newline c).text = gap.text ++ [c] := by
  cases gap with
  | none => simp [Gap.newline, Gap.text, hc]
  | blanks cs => exact absurd (h c rfl) (by simp [hbreak])
  | breaks first others => simp [Gap.newline, Gap.text, h.1]

theorem keeps_newline (hc : c ≠ '\n') (hs : ∀ d ∈ s.head?, d ≠ ' ') (h : Keeps gap (c :: s)) :
    Keeps (gap.newline c) s := by
  cases gap with
  | none => exact ⟨by simpa using hc, hs⟩
  | blanks cs => exact ⟨by simpa using hc, hs⟩
  | breaks first others => exact ⟨h.1, hs⟩

theorem Gap.isBroken_newline : (gap.newline c).isBroken = true := by
  cases gap <;> rfl

theorem isBroken_of_keeps_blank (h : Keeps gap (' ' :: s)) : gap.isBroken = false := by
  cases gap with
  | breaks first others => exact absurd rfl (h.2 ' ' rfl)
  | _ => rfl

theorem keeps_blank (hgap : gap.isBroken = false) (hs : ∀ d ∈ s.head?, isBreak d = false) :
    Keeps (gap.blank c) s := by
  cases gap with
  | breaks first others => cases hgap
  | _ => exact hs

theorem IsSingleQuotable.head_behind (h : IsSingleQuotable (c :: s)) (hc : isBreak c = true) :
    ∀ d ∈ s.head?, d ≠ ' ' := by
  intro d hd
  obtain ⟨s, rfl⟩ := List.head?_eq_some_iff.1 hd
  have hbehind := h.behind
  rintro rfl
  have hany := isAnyBreak_of_isPrintable (h.printable c List.mem_cons_self)
  simp [Scalar.hasPair, hany, hc, Scalar.isSpace] at hbehind

theorem IsSingleQuotable.head_before (h : IsSingleQuotable (' ' :: s)) :
    ∀ d ∈ s.head?, isBreak d = false := by
  intro d hd
  obtain ⟨s, rfl⟩ := List.head?_eq_some_iff.1 hd
  have hbefore := h.before
  simp only [Scalar.hasPair, Scalar.isSpace, Scalar.isAnyBreak, decide_true, Bool.true_and,
    Bool.or_eq_false_iff] at hbefore
  exact hbefore.1.2

/-- What follows the first quote is read up to the second one. The induction is on the text. -/
theorem readSingleQuoted_chars (h : IsSingleQuotable s) (hkeeps : Keeps gap s)
    (hm : gap.isBroken = false → m.column ≠ 0) (hrest : rest.head? ≠ some '\'') :
    ∃ m' : Mark, m.line ≤ m'.line ∧
      readSingleQuoted gap m (Scalar.singleQuotedChars gap.isBroken s ++ '\'' :: rest) =
        some (gap.text ++ s, ⟨m', rest⟩) := by
  induction s generalizing gap m with
  | nil =>
    obtain ⟨m₁, hm₁, hline, hread⟩ := readSingleQuoted_indentation (s := '\'' :: rest) hm
    refine ⟨m₁.next '\'', Nat.le_of_eq hline.symm, ?_⟩
    rw [Scalar.singleQuotedChars, hread, readSingleQuoted_end hm₁ hrest, List.append_nil]
  | cons c s ih =>
    have hany := isAnyBreak_of_isPrintable (h.printable c List.mem_cons_self)
    by_cases hbreak : isBreak c = true
    · have hfeed := h.feed c List.mem_cons_self
      obtain ⟨m', hline, hread⟩ := ih h.tail (keeps_newline hfeed (h.head_behind hbreak) hkeeps)
        (m := m.nextLine) (by simp [Gap.isBroken_newline])
      refine ⟨m', Nat.le_of_succ_le hline, ?_⟩
      rw [Scalar.singleQuotedChars, if_pos (hany.trans hbreak), List.cons_append,
        readSingleQuoted_break (isSpaceOrTab_of_isBreak hbreak) hbreak]
      rw [Gap.isBroken_newline, Gap.text_newline hfeed hbreak hkeeps] at hread
      simpa using hread
    · rw [Bool.not_eq_true] at hbreak
      rw [Scalar.singleQuotedChars, if_neg (by simp [hany, hbreak])]
      by_cases hspace : isSpaceOrTab c = true
      · obtain rfl := eq_space_of_isPrintable (h.printable c List.mem_cons_self) hspace
        have hgap := isBroken_of_keeps_blank hkeeps
        obtain ⟨m', hline, hread⟩ := ih h.tail (keeps_blank (c := ' ') hgap h.head_before)
          (m := m.next ' ') (fun _ => Nat.succ_ne_zero _)
        refine ⟨m', hline, ?_⟩
        rw [Gap.isBroken_blank hgap, Gap.text_blank hgap] at hread
        simpa [hgap, readSingleQuoted_blank] using hread
      · rw [Bool.not_eq_true] at hspace
        obtain ⟨m₁, hm₁, hline₁, hread₁⟩ := readSingleQuoted_indentation
          (s := (if c = '\'' then ['\'', '\''] else [c]) ++
            (Scalar.singleQuotedChars false s ++ '\'' :: rest)) hm
        obtain ⟨m₂, hm₂, hline₂, hread₂⟩ := readSingleQuoted_shown gap
          (s := Scalar.singleQuotedChars false s ++ '\'' :: rest) hm₁ hspace hbreak
        obtain ⟨m', hline, hread⟩ := ih h.tail (show Keeps .none s from trivial)
          (fun _ => hm₂)
        refine ⟨m', by omega, ?_⟩
        rw [List.append_assoc, List.append_assoc, hread₁, hread₂]
        rw [show Gap.isBroken .none = false from rfl] at hread
        simp [hread, consText, Gap.text]

end Yaml
end InjectionGrammar
