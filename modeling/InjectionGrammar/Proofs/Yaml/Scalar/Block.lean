import InjectionGrammar.Proofs.Yaml.Lexing
import InjectionGrammar.Yaml.Scalar.Block

/-! Texts that are written as literal scalars: their lines as they are, below a header that says
what becomes of the breaks at the end. -/
namespace InjectionGrammar
namespace Yaml
variable {c d : Char} {cs s t rest : List Char} {gap : Option BlockGap} {m : Mark} {k : Chomping}
  {blankBefore : Bool}

/-- The gap behind a further character. -/
def gapAfter (gap : Option BlockGap) (c : Char) : Option BlockGap :=
  if isBreak c then
    some (match gap with
      | none => ⟨some c, []⟩
      | some g => ⟨g.first, g.others ++ [c]⟩)
  else none

/-- The breaks of a gap, none of them folded. -/
def heldBack (gap : Option BlockGap) : List Char :=
  gap.elim [] fun g => g.first.toList ++ g.others

/-- Ends the line, if the text has not ended it. -/
def endLine (gap : Option BlockGap) (rest : List Char) : List Char :=
  if gap.isSome then rest else '\n' :: rest

/-- At the end of a text the breaks stay that are its own, and only these. -/
def Chomps (k : Chomping) (gap : Option BlockGap) : Prop :=
  (gap.getD ⟨some '\n', []⟩).chomp k = heldBack gap

theorem readLines_end (g : BlockGap) (hm : m.column = 0) (hrest : StartsLine rest) :
    readLines false k 2 blankBefore (some g) m rest = some (g.chomp k, ⟨m, rest⟩) := by
  rw [readLines.eq_def]
  cases rest with
  | nil => rfl
  | cons c rest =>
    obtain ⟨hspace, hbreak⟩ := hrest c rfl
    simp only [isSpaceOrTab, Bool.or_eq_false_iff, decide_eq_false_iff_not] at hspace
    simp [hspace, hbreak, hm]

theorem readLines_indentation (g : BlockGap) (hm : m.column = 0) :
    readLines false k 2 blankBefore (some g) m (Scalar.indentation ++ s) =
      readLines false k 2 blankBefore (some g) ((m.next ' ').next ' ') s := by
  rw [Scalar.indentation, List.cons_append, List.cons_append, readLines.eq_def]
  simp only [hm, true_and]
  rw [readLines.eq_def]
  simp [Mark.next, hm]

theorem readLines_break (hbreak : isBreak c = true) :
    readLines false k 2 blankBefore gap m (c :: s) =
      readLines false k 2 blankBefore (gapAfter gap c) m.nextLine s := by
  have hspace := isSpaceOrTab_of_isBreak hbreak
  simp only [isSpaceOrTab, Bool.or_eq_false_iff, decide_eq_false_iff_not] at hspace
  rw [readLines.eq_def]
  cases gap with
  | none => simp [hbreak, gapAfter]
  | some g => simp [hbreak, hspace, gapAfter]

theorem readLines_shown (blankBefore : Bool) (hbreak : isBreak c = false) (htab : c ≠ '\t')
    (hm : gap.isSome = true → m.column = 2) : ∃ blank,
    readLines false k 2 blankBefore gap m (c :: s) =
      consBlock (heldBack gap ++ [c]) (readLines false k 2 blank none (m.next c) s) := by
  cases gap with
  | none =>
    refine ⟨blankBefore, ?_⟩
    rw [readLines.eq_def]
    simp [hbreak, heldBack]
  | some g =>
    refine ⟨isSpaceOrTab c, ?_⟩
    rw [readLines.eq_def]
    simp [hbreak, htab, hm rfl, heldBack, BlockGap.text]

theorem readLines_endLine (blankBefore : Bool) (hm : gap.isSome = true → m.column = 0)
    (hrest : StartsLine rest) :
    ∃ m' : Mark, m'.column = 0 ∧
      readLines false k 2 blankBefore gap m (endLine gap rest) =
        some ((gap.getD ⟨some '\n', []⟩).chomp k, ⟨m', rest⟩) := by
  cases gap with
  | none =>
    refine ⟨m.nextLine, rfl, ?_⟩
    have hbreak : isBreak '\n' = true := by decide
    rw [endLine, if_neg (by decide), readLines_break hbreak, gapAfter, if_pos hbreak,
      readLines_end _ rfl hrest]
    rfl
  | some g =>
    refine ⟨m, hm rfl, ?_⟩
    exact readLines_end g (hm rfl) hrest

theorem heldBack_gapAfter (hbreak : isBreak c = true) :
    heldBack (gapAfter gap c) = heldBack gap ++ [c] := by
  cases gap <;> simp [gapAfter, hbreak, heldBack]

theorem isSome_gapAfter : (gapAfter gap c).isSome = isBreak c := by
  unfold gapAfter
  split <;> simp_all

/-- The lines of a text are read up to the next line that is not indented. The induction is on the
text; breaks are held back until the next character that shows. -/
theorem readLines_chars (blankBefore : Bool) (hs : ∀ c ∈ s, Scalar.isPrintable c = true)
    (hm : gap.isSome = true → m.column = 0) (hend : Chomps k (s.foldl gapAfter gap))
    (hrest : StartsLine rest) : ∃ m' : Mark, m'.column = 0 ∧
      readLines false k 2 blankBefore gap m
        (Scalar.literalChars gap.isSome s ++ endLine (s.foldl gapAfter gap) rest) =
          some (heldBack gap ++ s, ⟨m', rest⟩) := by
  induction s generalizing gap m blankBefore with
  | nil =>
    obtain ⟨m', hm', hread⟩ := readLines_endLine (k := k) blankBefore hm hrest
    refine ⟨m', hm', ?_⟩
    rw [Scalar.literalChars, List.foldl_nil, List.nil_append, hread, List.append_nil]
    exact congrArg (fun cs => some (cs, _)) hend
  | cons c s ih =>
    have hprint := hs c List.mem_cons_self
    have hany := isAnyBreak_of_isPrintable hprint
    have hs' : ∀ c ∈ s, Scalar.isPrintable c = true := fun x hx => hs x (List.mem_cons_of_mem c hx)
    rw [List.foldl_cons] at hend ⊢
    by_cases hbreak : isBreak c = true
    · obtain ⟨m', hm', hread⟩ := ih (m := m.nextLine) blankBefore hs' (fun _ => rfl) hend
      refine ⟨m', hm', ?_⟩
      rw [isSome_gapAfter, hbreak, heldBack_gapAfter hbreak] at hread
      rw [Scalar.literalChars, if_pos (hany.trans hbreak), List.cons_append,
        readLines_break hbreak, hread, List.append_assoc]
      rfl
    · rw [Bool.not_eq_true] at hbreak
      have htab : c ≠ '\t' := by
        rintro rfl
        exact absurd hprint (by decide)
      have hnone : gapAfter gap c = none := by simp [gapAfter, hbreak]
      rw [hnone] at hend ⊢
      rw [Scalar.literalChars, if_neg (by simp [hany, hbreak])]
      have hplace : ∃ m₁ : Mark, (gap.isSome = true → m₁.column = 2) ∧ ∀ t,
          readLines false k 2 blankBefore gap m
            ((if gap.isSome then Scalar.indentation else []) ++ t) =
            readLines false k 2 blankBefore gap m₁ t := by
        cases gap with
        | none => exact ⟨m, nofun, fun t => rfl⟩
        | some g =>
          exact ⟨(m.next ' ').next ' ', fun _ => by simp [Mark.next, hm rfl],
            fun t => readLines_indentation g (hm rfl)⟩
      obtain ⟨m₁, hm₁, hread₁⟩ := hplace
      obtain ⟨blank, hread₂⟩ := readLines_shown (k := k)
        (s := Scalar.literalChars false s ++ endLine (s.foldl gapAfter none) rest)
        blankBefore hbreak htab hm₁
      have hline : (none : Option BlockGap).isSome = true → (m₁.next c).column = 0 := nofun
      obtain ⟨m', hm', hread⟩ := ih blank hs' hline hend
      refine ⟨m', hm', ?_⟩
      rw [show Option.isSome (none : Option BlockGap) = false from rfl] at hread
      rw [List.append_assoc, hread₁, List.cons_append, hread₂, hread]
      simp [consBlock, heldBack]

/-! The header. -/

/-- How a header says what becomes of the breaks at the end. -/
def Chomping.indicator : Chomping → List Char
  | clip => []
  | strip => ['-']
  | keep => ['+']

/-- Whether the first line does not show the indentation. -/
def hidesIndentation (s : List Char) : Bool :=
  s.head?.any fun c => Scalar.isSpace c || Scalar.isAnyBreak c

/-- What the header says of the breaks at the end. The last two characters decide. -/
def chompingHint (s : List Char) : List Char :=
  match s.reverse with
  | [] => ['-']
  | [c] => if Scalar.isAnyBreak c then ['+'] else ['-']
  | c :: d :: _ =>
    if !Scalar.isAnyBreak c then ['-'] else if Scalar.isAnyBreak d then ['+'] else []

theorem literalHints_eq (s : List Char) :
    Scalar.literalHints s = (if hidesIndentation s then ['2'] else []) ++ chompingHint s :=
  rfl

theorem chomps_strip (h : isBreak c = false) : Chomps .strip (gapAfter gap c) := by
  simp [gapAfter, h, Chomps, BlockGap.chomp, heldBack]

theorem chomps_clip (hd : isBreak d = false) (hc : isBreak c = true) :
    Chomps .clip (gapAfter (gapAfter gap d) c) := by
  simp [gapAfter, hd, hc, Chomps, BlockGap.chomp, heldBack]

theorem chomps_keep (h : isBreak c = true) : Chomps .keep (gapAfter gap c) := by
  simp [gapAfter, h, Chomps, BlockGap.chomp, heldBack]

/-- The header keeps the breaks at the end of the text, and adds none. -/
theorem exists_chomping (gap : Option BlockGap) (hs : ∀ c ∈ s, Scalar.isPrintable c = true)
    (hne : s ≠ []) :
    ∃ k, chompingHint s = Chomping.indicator k ∧ Chomps k (s.foldl gapAfter gap) := by
  have hany : ∀ c ∈ s.reverse, Scalar.isAnyBreak c = isBreak c := fun c hc =>
    isAnyBreak_of_isPrintable (hs c (List.mem_reverse.1 hc))
  rw [← List.foldr_reverse]
  unfold chompingHint
  match hrev : s.reverse with
  | [] => exact absurd (List.reverse_eq_nil_iff.1 hrev) hne
  | [c] =>
    have hc := hany c (by simp [hrev])
    cases hbreak : isBreak c with
    | false => exact ⟨.strip, by simp [hc, hbreak, Chomping.indicator], chomps_strip hbreak⟩
    | true => exact ⟨.keep, by simp [hc, hbreak, Chomping.indicator], chomps_keep hbreak⟩
  | c :: d :: t =>
    have hc := hany c (by simp [hrev])
    have hd := hany d (by simp [hrev])
    cases hbreak : isBreak c with
    | false => exact ⟨.strip, by simp [hc, hbreak, Chomping.indicator], chomps_strip hbreak⟩
    | true =>
      cases hbreak' : isBreak d with
      | false =>
        exact ⟨.clip, by simp [hc, hd, hbreak, hbreak', Chomping.indicator],
          chomps_clip hbreak' hbreak⟩
      | true =>
        exact ⟨.keep, by simp [hc, hd, hbreak, hbreak', Chomping.indicator], chomps_keep hbreak⟩

theorem readHeader_hints (increment : Bool) (k : Chomping) (m : Mark) (s : List Char) :
    ∃ m' : Mark, m'.column = 0 ∧
      readHeader ⟨m, (if increment then ['2'] else []) ++ (k.indicator ++ '\n' :: s)⟩ =
        some ⟨k, if increment then some 2 else none, ⟨m', s⟩⟩ := by
  cases increment <;> cases k <;> exact ⟨_, rfl, rfl⟩

/-- The first line shows the indentation if it begins with a character that shows. -/
theorem leadingLines_chars (rest : List Char) (hs : ∀ c ∈ s, Scalar.isPrintable c = true)
    (hne : s ≠ [])
    (hshown : hidesIndentation s = false) (hm : m.column = 0) :
    ∃ t, Scalar.literalChars true s ++ rest = Scalar.indentation ++ t ∧
      leadingLines 0 [] m (Scalar.indentation ++ t) = some (2, [], ⟨(m.next ' ').next ' ', t⟩) := by
  obtain ⟨c, s, rfl⟩ := List.exists_cons_of_ne_nil hne
  have hc : c ≠ ' ' ∧ Scalar.isAnyBreak c = false := by
    simpa [hidesIndentation, Scalar.isSpace] using hshown
  have hprint := hs c List.mem_cons_self
  have hbreak : isBreak c = false := (isAnyBreak_of_isPrintable hprint).symm.trans hc.2
  have htab : c ≠ '\t' := by
    rintro rfl
    exact absurd hprint (by decide)
  refine ⟨c :: Scalar.literalChars false s ++ rest, by simp [Scalar.literalChars, hc.2], ?_⟩
  simp [Scalar.indentation, leadingLines, hc.1, htab, hbreak, Mark.next, hm]

/-- A text is read from its header and its lines. -/
theorem readBlock_literal (hs : ∀ c ∈ s, Scalar.isPrintable c = true) (hne : s ≠ [])
    (hrest : StartsLine rest) (m : Mark) : ∃ m' : Mark, m'.column = 0 ∧
      readBlock false (some 0) ⟨m, Scalar.literalHints s ++ '\n' :: (Scalar.literalChars true s ++
        endLine (s.foldl gapAfter (some ⟨none, []⟩)) rest)⟩ = some (s, ⟨m', rest⟩) := by
  obtain ⟨k, hhint, hchomps⟩ := exists_chomping (some ⟨none, []⟩) hs hne
  obtain ⟨m₁, hm₁, hheader⟩ := readHeader_hints (hidesIndentation s) k m
    (Scalar.literalChars true s ++ endLine (s.foldl gapAfter (some ⟨none, []⟩)) rest)
  obtain ⟨m', hm', hlines⟩ := readLines_chars (m := m₁) false hs (fun _ => hm₁) hchomps hrest
  refine ⟨m', hm', ?_⟩
  rw [literalHints_eq, hhint, List.append_assoc, readBlock, hheader]
  rw [Option.isSome_some] at hlines
  cases hhides : hidesIndentation s with
  | true => exact hlines
  | false =>
    obtain ⟨t, ht, hleading⟩ := leadingLines_chars
      (endLine (s.foldl gapAfter (some ⟨none, []⟩)) rest) hs hne hhides hm₁
    rw [ht, readLines_indentation _ hm₁] at hlines
    simp [ht, hleading, hlines, heldBack]

end Yaml
end InjectionGrammar
