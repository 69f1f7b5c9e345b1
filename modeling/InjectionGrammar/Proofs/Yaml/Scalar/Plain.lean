import InjectionGrammar.Yaml.Scalar.Plain
import InjectionGrammar.Proofs.Yaml.Scalar.Quoted

/-! Texts that are written without quotes. -/
namespace InjectionGrammar
namespace Yaml
variable {c d : Char} {cs s rest : List Char} {gap : Gap} {m : Mark} {indent : Nat}

/-- What can stand in a plain scalar up to its end: no tab, no break, no colon at the end of a word,
no comment and no blank at the end. -/
structure IsPlainText (s : List Char) : Prop where
  blank : ∀ c ∈ s, isSpaceOrTab c = true → c = ' '
  unbroken : ∀ c ∈ s, isBreak c = false
  colon : Scalar.hasPair (· = ':') Scalar.isBlankOrBreak s = false
  comment : Scalar.hasPair Scalar.isBlankOrBreak (· = '#') s = false
  last : ∀ c ∈ s.getLast?, isSpaceOrTab c = false ∧ c ≠ ':'

theorem IsPlainText.tail (h : IsPlainText (c :: d :: s)) : IsPlainText (d :: s) where
  blank x hx := h.blank x (List.mem_cons_of_mem c hx)
  unbroken x hx := h.unbroken x (List.mem_cons_of_mem c hx)
  colon := by
    have hcolon := h.colon
    simp only [Scalar.hasPair, Bool.or_eq_false_iff] at hcolon
    exact hcolon.2
  comment := by
    have hcomment := h.comment
    simp only [Scalar.hasPair, Bool.or_eq_false_iff] at hcomment
    exact hcomment.2
  last := by simpa using h.last

theorem Plain.cons_cons (cs ds : List Char) (r : Option Plain) :
    Plain.cons cs (Plain.cons ds r) = Plain.cons (cs ++ ds) r := by
  cases r <;> simp [Plain.cons]

/-- Behind blanks a character has to be in its line and must not begin a comment. -/
def GoesOn (indent : Nat) (gap : Gap) (m : Mark) (c : Char) : Prop :=
  gap ≠ .none → m.column ≠ 0 ∧ indent ≤ m.column ∧ c ≠ '#'

theorem readPlain_shown (hspace : isSpaceOrTab c = false) (hbreak : isBreak c = false)
    (hgap : GoesOn indent gap m c) (hcolon : c = ':' → atBlank s = false) :
    readPlain false indent gap m (c :: s) =
      Plain.cons (gap.text ++ [c]) (readPlain false indent .none (m.next c) s) := by
  have hstop : ¬(gap ≠ .none ∧ (m.column < indent ∨ c = '#' ∨
      (m.column = 0 ∧ atDocumentMark (c :: s) = true))) := by
    rintro ⟨hne, hstop⟩
    obtain ⟨hcolumn, hindent, hcomment⟩ := hgap hne
    rcases hstop with hstop | hstop | hstop
    · omega
    · exact hcomment hstop
    · exact hcolumn hstop.1
  have hend : atPlainEnd false (c :: s) = false := by
    by_cases hc : c = ':' <;> simp [atPlainEnd, hc, hcolon]
  rw [readPlain]
  simp [hspace, hbreak, hstop, hend]

theorem readPlain_blank :
    readPlain false indent gap m (' ' :: s) =
      readPlain false indent (gap.blank ' ') (m.next ' ') s := by
  have hspace : isSpaceOrTab ' ' = true := by decide
  rw [readPlain]
  simp [hspace]

theorem isBlankOrBreak_eq_false (h : Scalar.isBlankOrBreak c = false) :
    isSpaceOrTab c = false ∧ isBreak c = false := by
  simp only [Scalar.isBlankOrBreak, Scalar.isAnyBreak, Bool.or_eq_false_iff] at h
  exact ⟨h.1, h.2.2⟩

/-- A text is read up to what follows it. The induction is on the text; blanks are held back until
the next character that shows. -/
theorem readPlain_text (h : IsPlainText (c :: s)) (hindent : indent ≤ 1)
    (hgap : gap.isBroken = false) (hc : GoesOn indent gap m c) :
    readPlain false indent gap m (c :: (s ++ rest)) =
      Plain.cons (gap.text ++ c :: s) (readPlain false indent .none (m.advance (c :: s)) rest) := by
  induction s generalizing c gap m with
  | nil =>
    obtain ⟨hspace, hcolon⟩ := h.last c rfl
    exact readPlain_shown hspace (h.unbroken c List.mem_cons_self) hc fun hc => absurd hc hcolon
  | cons d s ih =>
    rw [Mark.advance_cons]
    by_cases hspace : isSpaceOrTab c = true
    · obtain rfl := h.blank c List.mem_cons_self hspace
      have hd : d ≠ '#' := by
        rintro rfl
        exact absurd h.comment (by simp [Scalar.hasPair, Scalar.isBlankOrBreak, hspace])
      have hgoes : GoesOn indent (gap.blank ' ') (m.next ' ') d := fun _ =>
        ⟨Nat.succ_ne_zero _, Nat.le_trans hindent (Nat.le_add_left _ _), hd⟩
      rw [readPlain_blank, List.cons_append, ih h.tail (Gap.isBroken_blank hgap) hgoes,
        Gap.text_blank hgap, List.append_assoc]
      rfl
    · rw [Bool.not_eq_true] at hspace
      have hcolon : c = ':' → atBlank (d :: s ++ rest) = false := by
        rintro rfl
        have hd := h.colon
        simp only [Scalar.hasPair, decide_true, Bool.true_and, Bool.or_eq_false_iff] at hd
        simp [atBlank, isBlankOrBreak_eq_false hd.1]
      rw [readPlain_shown hspace (h.unbroken c List.mem_cons_self) hc hcolon, List.cons_append,
        ih h.tail rfl (fun hne => absurd rfl hne), Plain.cons_cons]
      simp [Gap.text]

/-- A plain scalar ends with its line, if the next line is not indented. -/
theorem readPlain_lineEnd (hindent : 0 < indent) (hrest : StartsLine rest) :
    readPlain false indent .none m ('\n' :: rest) = some ⟨[], true, ⟨m.nextLine, rest⟩⟩ := by
  have hbreak : isSpaceOrTab '\n' = false ∧ isBreak '\n' = true := by decide
  rw [readPlain]
  simp only [hbreak, Bool.false_eq_true, if_false, if_true, Gap.newline]
  cases rest with
  | nil => rfl
  | cons c rest =>
    obtain ⟨hspace, hnoBreak⟩ := hrest c rfl
    have hcolumn : m.nextLine.column < indent := hindent
    rw [readPlain]
    simp [hspace, hnoBreak, hcolumn, Gap.isBroken]

theorem readPlain_colon (hrest : atBlank rest = true) :
    readPlain false indent .none m (':' :: rest) = some ⟨[], false, ⟨m, ':' :: rest⟩⟩ := by
  have hcolon : isSpaceOrTab ':' = false ∧ isBreak ':' = false := by decide
  rw [readPlain]
  simp [hcolon, atPlainEnd, hrest, Gap.isBroken]

theorem isPlainText_of_allowsPlain (h : Scalar.allowsPlain s = true) : IsPlainText s := by
  simp only [Scalar.allowsPlain, Scalar.needsEscape, Scalar.hasIndicator, Bool.and_eq_true,
    Bool.not_eq_true', Bool.or_eq_false_iff, List.any_eq_false, decide_eq_false_iff_not,
    Bool.not_eq_true] at h
  obtain ⟨⟨⟨⟨⟨hprint, -⟩, hbreak⟩, -⟩, hlast⟩, ⟨⟨⟨-, hcolon⟩, hend⟩, hcomment⟩⟩ := h
  have hblank : ∀ c ∈ s, isSpaceOrTab c = true → c = ' ' := fun c hc hspace =>
    eq_space_of_isPrintable (by simpa using hprint c hc) hspace
  refine ⟨hblank, fun c hc => ?_, hcolon, hcomment, fun c hc => ⟨?_, ?_⟩⟩
  · have hc := hbreak c hc
    simp only [Scalar.isAnyBreak, Bool.or_eq_false_iff] at hc
    exact hc.2
  · rw [← Bool.not_eq_true]
    intro hspace
    obtain rfl := hblank c (List.mem_of_getLast? hc) hspace
    rw [Option.mem_def.1 hc] at hlast
    exact absurd hlast (by decide)
  · rintro rfl
    exact hend hc

/-- What begins a text that needs no quotes. -/
theorem head_of_allowsPlain (h : Scalar.allowsPlain (c :: s) = true) :
    isSpaceOrTab c = false ∧ c ∉ Scalar.indicators ∧
      (c ∈ ['?', ':', '-'] → ∀ t, atBlank (s ++ t) = false) := by
  have hhead : Scalar.isSpace c = false ∧ Scalar.isPrintable c = true := by
    simp only [Scalar.allowsPlain, Scalar.needsEscape, Bool.and_eq_true, Bool.not_eq_true',
      Bool.or_eq_false_iff, List.any_cons, List.head?_cons, Option.any_some] at h
    exact ⟨h.1.1.2.1, by simpa using h.1.1.1.1.1.1⟩
  have hstart : Scalar.indicators.contains c = false ∧
      (['?', ':', '-'].contains c && !Scalar.goesOn s) = false := by
    simp only [Scalar.allowsPlain, Scalar.hasIndicator, Bool.and_eq_true, Bool.not_eq_true',
      Bool.or_eq_false_iff] at h
    exact h.2.1.1.1.1.1
  refine ⟨?_, by simpa using hstart.1, fun hc t => ?_⟩
  · rw [← Bool.not_eq_true]
    intro hspace
    obtain rfl := eq_space_of_isPrintable hhead.2 hspace
    exact absurd hhead.1 (by decide)
  · have hgoes := hstart.2
    rw [List.contains_iff_mem.2 hc, Bool.true_and, Bool.not_eq_false'] at hgoes
    cases s with
    | nil => cases hgoes
    | cons d s =>
      have hd := isBlankOrBreak_eq_false (by simpa [Scalar.goesOn] using hgoes)
      simp [atBlank, hd]

end Yaml
end InjectionGrammar
