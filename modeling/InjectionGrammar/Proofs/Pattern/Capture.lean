import InjectionGrammar.Builder
import InjectionGrammar.Proofs.Builder.Repository
import InjectionGrammar.Proofs.Pattern.Alternation
import InjectionGrammar.Proofs.Pattern.TagComment
import InjectionGrammar.Text.Alphanumeric
import Mathlib.Data.List.Basic

/-! What the groups of a pattern capture. An alias cannot leave the group of aliases, whatever it
consists of, so the first group of a tag comment is always its sign and the second one the alias. -/
namespace InjectionGrammar
namespace Pattern
variable {c d : Char} {s u : List Char} {ts vs : List (List Char)} {x : Sign}
  {xs ys zs : List Sign} {e : Expression} {identifiers : List String}

/-- What is escaped has a code among those of the blank characters or before all letters that are not
in ASCII. -/
theorem toNat_of_needsEscape (h : needsEscape c = true) : c.toNat < 0xaa ∨ c.toNat = 0x1680 ∨
    (0x2000 ≤ c.toNat ∧ c.toNat ≤ 0x205f) ∨ c.toNat = 0x3000 := by
  rcases Bool.or_eq_true_iff.1 h with h | h
  · simp only [isBlank, Bool.or_eq_true, Bool.and_eq_true, decide_eq_true_eq, beq_iff_eq] at h
    omega
  · have hall : metacharacters.all (·.toNat < 0xaa) = true := by decide
    exact .inl (by simpa using List.all_eq_true.1 hall c (List.contains_iff_mem.1 h))

theorem ranges_without_blanks : ∀ r ∈ letterRanges ++ numberRanges, 0xaa ≤ r.1 ∧
    (r.2 < 0x1680 ∨ 0x1680 < r.1) ∧ (r.2 < 0x2000 ∨ 0x205f < r.1) ∧
      (r.2 < 0x3000 ∨ 0x3000 < r.1) := by
  decide +kernel

/-- What is escaped is neither a letter nor a digit of any script. -/
theorem isAlphanumeric_of_needsEscape (h : needsEscape c = true) : isAlphanumeric c = false := by
  have houtside : ∀ r ∈ letterRanges ++ numberRanges,
      ¬(decide (r.1 ≤ c.toNat) && decide (c.toNat ≤ r.2)) = true := by
    intro r hr hin
    have hrange := ranges_without_blanks r hr
    have hcode := toNat_of_needsEscape h
    rw [Bool.and_eq_true, decide_eq_true_eq, decide_eq_true_eq] at hin
    omega
  have hascii := isAlphanum_of_needsEscape h
  rw [Char.isAlphanum, Bool.or_eq_false_iff] at hascii
  simp only [isAlphanumeric, isLetter, hascii, Bool.false_or, Bool.or_false,
    Bool.or_eq_false_iff, List.any_eq_false]
  constructor
  · intro r hr
    exact houtside r (List.mem_append_left _ hr)
  · intro r hr
    exact houtside r (List.mem_append_right _ hr)

/-- A sign as it is written. -/
def Sign.written : Sign → List Char
  | plain c => [c]
  | escaped c => ['\\', c]

/-- Signs without their backslashes. -/
def unescape (xs : List Sign) : String :=
  String.ofList (xs.map Sign.char)

theorem unescape_ofLiteral (t : List Char) : unescape (t.map Sign.ofLiteral) = String.ofList t := by
  rw [unescape, List.map_map]
  congr 1
  exact (List.map_congr_left fun c _ => Sign.char_ofLiteral c).trans (List.map_id t)

/-- Reading signs loses nothing. -/
theorem written_signs (s : List Char) : (signs s).flatMap Sign.written = s := by
  induction s using signs.induct with
  | case1 => rfl
  | case2 c s ih =>
    change ['\\', c] ++ (signs s).flatMap Sign.written = _
    rw [ih]
    rfl
  | case3 c s hne ih =>
    have hplain : signs (c :: s) = .plain c :: signs s := by
      rw [signs.eq_def]
      split
      · next heq => cases heq
      · next heq =>
        obtain ⟨rfl, rfl⟩ := List.cons.inj heq
        exact absurd rfl (hne _ _ rfl)
      · next heq =>
        obtain ⟨rfl, rfl⟩ := List.cons.inj heq
        rfl
    rw [hplain, List.flatMap_cons, ih]
    rfl

/-- Signs that make a pattern by themselves stand for the texts of its expression. -/
def StandsFor (xs : List Sign) (u : List Char) : Prop :=
  ∃ e, parse (String.ofList (xs.flatMap Sign.written)) = some e ∧ e.Denotes u

/-- A pattern of signs matches a text, and its groups match parts of the text. The groups are apart
from each other, and outside of them there are no alternatives. -/
inductive MatchesWith : List Sign → List Char → List (List Char) → Prop where
  | rest {xs : List Sign} {u : List Char} (ho : .plain '(' ∉ xs) (hb : .plain '|' ∉ xs)
      (hx : StandsFor xs u) : MatchesWith xs u []
  | group {xs ys zs : List Sign} {u v w : List Char} {vs : List (List Char)}
      (ho : .plain '(' ∉ xs) (hb : .plain '|' ∉ xs) (hc : .plain ')' ∉ ys) (hx : StandsFor xs u)
      (hy : StandsFor ys v) (hz : MatchesWith zs w vs) :
      MatchesWith (xs ++ .plain '(' :: (ys ++ .plain ')' :: zs)) (u ++ (v ++ w)) (v :: vs)

theorem standsFor_iff (h : parse (String.ofList (xs.flatMap Sign.written)) = some e) :
    StandsFor xs u ↔ e.Denotes u := by
  unfold StandsFor
  rw [h]
  simp

/-- A pattern without groups captures nothing. -/
theorem matchesWith_rest_iff (ho : .plain '(' ∉ xs) (hb : .plain '|' ∉ xs) :
    MatchesWith xs u vs ↔ StandsFor xs u ∧ vs = [] := by
  constructor
  · intro h
    cases h with
    | rest _ _ hx => exact ⟨hx, rfl⟩
    | group => simp at ho
  · rintro ⟨hx, rfl⟩
    exact .rest ho hb hx

/-- Two lists are parted in one way only by what does not come before. -/
theorem eq_of_append_cons {α : Type} {x y s t : List α} {a : α} (hx : a ∉ x) (hy : a ∉ y)
    (h : x ++ a :: s = y ++ a :: t) : x = y ∧ s = t := by
  rcases List.append_eq_append_iff.1 h with ⟨v, rfl, hv⟩ | ⟨v, rfl, hv⟩
  · cases v with
    | nil => simpa using hv
    | cons b v => simp_all
  · cases v with
    | nil => simpa [eq_comm] using hv
    | cons b v => simp_all

/-- The first group of a pattern captures what stands in it. -/
theorem matchesWith_group_iff (ho : .plain '(' ∉ xs) (hb : .plain '|' ∉ xs) (hc : .plain ')' ∉ ys) :
    MatchesWith (xs ++ .plain '(' :: (ys ++ .plain ')' :: zs)) s vs ↔
      ∃ u v w ws, StandsFor xs u ∧ StandsFor ys v ∧ MatchesWith zs w ws ∧ s = u ++ (v ++ w) ∧
        vs = v :: ws := by
  constructor
  · intro h
    generalize hp : xs ++ .plain '(' :: (ys ++ .plain ')' :: zs) = p at h
    cases h with
    | rest ho' => simp [← hp] at ho'
    | group ho' _ hc' hx hy hz =>
      obtain ⟨rfl, hinner⟩ := eq_of_append_cons ho ho' hp
      obtain ⟨rfl, rfl⟩ := eq_of_append_cons hc hc' hinner
      exact ⟨_, _, _, _, hx, hy, hz, rfl, rfl⟩
  · rintro ⟨u, v, w, ws, hx, hy, hz, rfl, rfl⟩
    exact .group ho hb hc hx hy hz

theorem standsFor_aliasGroup (h : identifiers ≠ []) :
    StandsFor (aliasGroup identifiers) u ↔ ∃ a ∈ identifiers, u = a.toList := by
  have hts : identifiers.map (·.toList) ≠ [] := by simpa using h
  have hwritten : (aliasGroup identifiers).flatMap Sign.written =
      ['|'].intercalate ((identifiers.map (·.toList)).map fun t => t.flatMap escapeChar) := by
    have hread := written_signs (['|'].intercalate
      ((identifiers.map (·.toList)).map fun t => t.flatMap escapeChar))
    rw [← List.append_nil (List.intercalate _ _), signs_intercalate] at hread
    simpa [aliasGroup, signs] using hread
  have hparse : parse (String.ofList ((aliasGroup identifiers).flatMap Sign.written)) =
      some (Group.spellEach {} (identifiers.map (·.toList))).close := by
    rw [parse, String.toList_ofList, hwritten, ← List.append_nil (List.intercalate _ _),
      parseFrom_alternatives]
    rfl
  rw [standsFor_iff hparse, denotes_spellEach hts]
  simp [eq_comm]

theorem standsFor_gapSigns : StandsFor gapSigns u ↔ ∀ c ∈ u, isGap c = true := by
  have hparse : parse (String.ofList (gapSigns.flatMap Sign.written)) =
      some (.seq .empty .gap) := by
    rw [parse, String.toList_ofList]
    exact (parseFrom_gap []).trans rfl
  rw [standsFor_iff hparse]
  simp

/-- Behind the sign of a comment the next group captures an alias. -/
theorem matchesWith_aliases (h : identifiers ≠ []) :
    MatchesWith (gapSigns ++ Sign.plain '(' :: (aliasGroup identifiers ++
        Sign.plain ')' :: [Sign.escaped 'n'])) s vs ↔
      ∃ a ∈ identifiers, ∃ w : List Char, (∀ c ∈ w, isGap c = true) ∧
        s = w ++ (a.toList ++ ['\n']) ∧ vs = [a.toList] := by
  have hend : ∀ u vs, MatchesWith [.escaped 'n'] u vs ↔ u = ['\n'] ∧ vs = [] := by
    intro u vs
    rw [matchesWith_rest_iff (by decide) (by decide),
      standsFor_iff (e := .seq .empty (.char '\n')) rfl]
    simp
  rw [matchesWith_group_iff (by decide) (by decide) (paren_not_mem_aliasGroup (.inr rfl))]
  simp only [hend, standsFor_gapSigns, standsFor_aliasGroup h]
  constructor
  · rintro ⟨w, _, _, _, hw, ⟨a, ha, rfl⟩, ⟨rfl, rfl⟩, rfl, rfl⟩
    exact ⟨a, ha, w, hw, rfl, rfl⟩
  · rintro ⟨a, ha, w, hw, rfl, rfl⟩
    exact ⟨w, _, _, _, hw, ⟨a, ha, rfl⟩, ⟨rfl, rfl⟩, rfl, rfl⟩

/-- Where a tag comment matches, its groups are the sign and an alias. -/
theorem matchesWith_tagComment (h : identifiers ≠ []) :
    MatchesWith (signs (tagComment identifiers).toList) s vs ↔
      ∃ a ∈ identifiers, ∃ w : List Char, (∀ c ∈ w, isGap c = true) ∧
        s = '#' :: (w ++ (a.toList ++ ['\n'])) ∧ vs = [['#'], a.toList] := by
  have hnothing : ∀ u, StandsFor [] u ↔ u = [] :=
    fun u => (standsFor_iff (e := .empty) rfl).trans Expression.denotes_empty
  have hsign : ∀ u, StandsFor [.plain '#'] u ↔ u = ['#'] := by
    intro u
    rw [standsFor_iff (e := .seq .empty (.char '#')) rfl]
    simp
  rw [signs_tagComment]
  change MatchesWith ([] ++ Sign.plain '(' :: ([Sign.plain '#'] ++ Sign.plain ')' :: (gapSigns ++
    Sign.plain '(' :: (aliasGroup identifiers ++ Sign.plain ')' :: [Sign.escaped 'n'])))) s vs ↔ _
  rw [matchesWith_group_iff (by decide) (by decide) (by decide)]
  simp only [hnothing, hsign, matchesWith_aliases h]
  constructor
  · rintro ⟨_, _, _, _, rfl, rfl, ⟨a, ha, w, hw, rfl, rfl⟩, rfl, rfl⟩
    exact ⟨a, ha, w, hw, rfl, rfl⟩
  · rintro ⟨a, ha, w, hw, rfl, rfl⟩
    exact ⟨_, _, _, _, rfl, rfl, ⟨a, ha, w, hw, rfl, rfl⟩, rfl, rfl⟩

theorem needsEscape_of_escaped_mem (h : .escaped c ∈ aliasGroup identifiers) :
    needsEscape c = true := by
  rcases mem_intercalate_ofLiteral h with heq | ⟨d, heq⟩
  · cases heq
  · unfold Sign.ofLiteral at heq
    split at heq
    · next hd =>
      obtain rfl := Sign.escaped.inj heq
      exact hd
    · cases heq

theorem needsEscape_of_plain_mem (h : .plain c ∈ aliasGroup identifiers) :
    c = '|' ∨ needsEscape c = false := by
  rcases mem_intercalate_ofLiteral h with heq | ⟨d, heq⟩
  · exact .inl (Sign.plain.inj heq)
  · refine .inr (Bool.eq_false_iff.2 ?_)
    intro hc
    exact Sign.ofLiteral_ne_plain hc heq.symm

theorem splitOn_aliasGroup (h : identifiers ≠ []) :
    ((aliasGroup identifiers).splitOn (.plain '|')).map unescape = identifiers := by
  rw [aliasGroup, splitOn_intercalate_ofLiteral (by simpa using h), List.map_map, List.map_map]
  conv => rhs; rw [← List.map_id identifiers]
  apply List.map_congr_left
  intro a _
  exact (unescape_ofLiteral a.toList).trans String.ofList_toList

theorem count_paren_tagComment (hd : d = '(' ∨ d = ')') :
    (signs (tagComment identifiers).toList).count (.plain d) = 2 := by
  have hbody : (aliasGroup identifiers).count (.plain d) = 0 :=
    List.count_eq_zero.2 (paren_not_mem_aliasGroup hd)
  rw [signs_tagComment]
  simp only [List.count_cons, List.count_append, hbody]
  rcases hd with rfl | rfl <;> decide

end Pattern

namespace Language
open Pattern
variable {l : Language}

/-- Whatever the aliases of a language consist of, its tag comment has two groups and no
parentheses besides. The first group is the sign; the second one, cut at its bars and without its
backslashes, is the list of the aliases, and everything in it is escaped just if it has to be. So the
comment determines the aliases, and where it matches the groups are the sign and an alias. Just to
these groups and to the whole comment the rule of the language assigns scopes. -/
theorem aliases_stay_in_group (h : l.identifiers ≠ []) :
    (signs l.tagPattern.toList).count (.plain '(') = 2 ∧
    (signs l.tagPattern.toList).count (.plain ')') = 2 ∧
    (∃ body, groups (signs l.tagPattern.toList) = [[.plain '#'], body] ∧
      (body.splitOn (.plain '|')).map unescape = l.identifiers ∧
      (∀ c, .escaped c ∈ body → needsEscape c = true ∧ isAlphanumeric c = false) ∧
      ∀ c, .plain c ∈ body → c = '|' ∨ needsEscape c = false) ∧
    (∀ l' : Language, l'.identifiers ≠ [] → l'.tagPattern = l.tagPattern →
      l'.identifiers = l.identifiers) ∧
    (∀ s vs, MatchesWith (signs l.tagPattern.toList) s vs ↔
      ∃ a ∈ l.identifiers, ∃ w : List Char, (∀ c ∈ w, isGap c = true) ∧
        s = '#' :: (w ++ (a.toList ++ ['\n'])) ∧ vs = [['#'], a.toList]) ∧
    ∀ rule, l.rule = .ok rule → rule.opening = some l.tagPattern ∧
      rule.captures.keys = [0, 1, 2] ∧ rule.capture? 2 = some l.tagScope := by
  refine ⟨count_paren_tagComment (.inl rfl), count_paren_tagComment (.inr rfl), ?_, ?_, ?_, ?_⟩
  · refine ⟨aliasGroup l.identifiers, groups_tagComment l.identifiers, splitOn_aliasGroup h, ?_, ?_⟩
    · intro c hc
      have hescape := needsEscape_of_escaped_mem hc
      exact ⟨hescape, isAlphanumeric_of_needsEscape hescape⟩
    · intro c hc
      exact needsEscape_of_plain_mem hc
  · intro l' h' heq
    exact (tagComment_inj h' h).1 heq
  · intro s vs
    exact matchesWith_tagComment h
  · intro rule hrule
    obtain rfl := eq_embedding_of_rule hrule
    exact ⟨rfl, rfl, rfl⟩

/-- Aliases made of what separates groups and aliases, one without characters and one that is a
backslash. -/
theorem aliases_stay_in_group_of_parens :
    let l : Language := ⟨"odd", ["a)|(b", "", "\\", "#\n"], .one "source.odd"⟩
    (signs l.tagPattern.toList).count (.plain '(') = 2 ∧
    (∃ body, groups (signs l.tagPattern.toList) = [[.plain '#'], body] ∧
      (body.splitOn (.plain '|')).map unescape = ["a)|(b", "", "\\", "#\n"]) ∧
    MatchesWith (signs l.tagPattern.toList) ['#', '\t', 'a', ')', '|', '(', 'b', '\n']
      [['#'], ['a', ')', '|', '(', 'b']] := by
  intro l
  obtain ⟨hopen, -, ⟨body, hgroups, hsplit, -, -⟩, -, hmatches, -⟩ :=
    aliases_stay_in_group (l := l) (List.cons_ne_nil _ _)
  refine ⟨hopen, ⟨body, hgroups, hsplit⟩, (hmatches _ _).2 ?_⟩
  exact ⟨"a)|(b", List.mem_cons_self, ['\t'], by simp [isGap], rfl, rfl⟩

end Language
end InjectionGrammar
