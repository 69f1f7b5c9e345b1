import InjectionGrammar.Pattern
import Mathlib.Data.List.Basic

/-! The alternatives of a pattern are told apart at its bars. Those of a tag comment are its
aliases, so the comment determines them. -/
namespace InjectionGrammar
namespace Pattern

/-- A character of a pattern that stands by itself, or behind a backslash. -/
inductive Sign where
  | plain (c : Char)
  | escaped (c : Char)
  deriving DecidableEq, Repr

namespace Sign

def char : Sign → Char
  | plain c => c
  | escaped c => c

/-- The sign that a character becomes when it is escaped if it has to be. -/
def ofLiteral (c : Char) : Sign :=
  if needsEscape c then escaped c else plain c

end Sign

/-- A backslash is taken together with the character behind it. -/
def signs : List Char → List Sign
  | [] => []
  | '\\' :: c :: s => .escaped c :: signs s
  | c :: s => .plain c :: signs s

/-- What stands between each parenthesis that opens and the next one that closes. -/
def groups : List Sign → List (List Sign)
  | [] => []
  | x :: xs =>
    if x = .plain '(' then xs.takeWhile (fun y => decide (y ≠ .plain ')')) :: groups xs
    else groups xs

/-- The alternatives in the second group of a pattern with two groups. -/
def alternatives? (pattern : String) : Option (List (List Sign)) :=
  match groups (signs pattern.toList) with
  | [_, g] => some (g.splitOn (.plain '|'))
  | _ => none

variable {c d : Char} {s t : List Char} {ts : List (List Char)} {x : Sign} {xs ys : List Sign}
  {identifiers identifiers' : List String}

theorem Sign.char_ofLiteral (c : Char) : (Sign.ofLiteral c).char = c := by
  unfold ofLiteral
  split <;> rfl

theorem Sign.ofLiteral_injective : Function.Injective Sign.ofLiteral := by
  intro c d h
  rw [← char_ofLiteral c, h, char_ofLiteral]

/-- What has to be escaped does not stand by itself. -/
theorem Sign.ofLiteral_ne_plain (hd : needsEscape d = true) : Sign.ofLiteral c ≠ .plain d := by
  intro h
  have hc : c = d := (char_ofLiteral c).symm.trans (congrArg char h)
  rw [hc, ofLiteral, if_pos hd] at h
  cases h

theorem signs_plain (hc : c ≠ '\\') (s : List Char) : signs (c :: s) = .plain c :: signs s := by
  rw [signs.eq_def]
  simp [hc]

theorem signs_escapeChar (c : Char) (s : List Char) :
    signs (escapeChar c ++ s) = Sign.ofLiteral c :: signs s := by
  unfold escapeChar Sign.ofLiteral
  split
  · rfl
  · next hc =>
    have hne : c ≠ '\\' := by
      rintro rfl
      exact hc rfl
    exact signs_plain hne s

theorem signs_escape (t s : List Char) :
    signs (t.flatMap escapeChar ++ s) = t.map Sign.ofLiteral ++ signs s := by
  induction t with
  | nil => rfl
  | cons c t ih =>
    rw [List.flatMap_cons, List.append_assoc, signs_escapeChar, ih]
    rfl

/-- Only the bars between texts stay bars. -/
theorem signs_intercalate (ts : List (List Char)) (s : List Char) :
    signs (['|'].intercalate (ts.map fun t => t.flatMap escapeChar) ++ s) =
      [Sign.plain '|'].intercalate (ts.map fun t => t.map Sign.ofLiteral) ++ signs s := by
  induction ts with
  | nil => rfl
  | cons t ts ih =>
    cases ts with
    | nil => simp only [List.map_singleton, List.intercalate_singleton, signs_escape]
    | cons t' ts =>
      have hbar : ∀ s, signs ('|' :: s) = .plain '|' :: signs s := signs_plain (by decide)
      simp only [List.map_cons, List.intercalate_cons_cons, List.append_assoc, signs_escape,
        List.cons_append, List.nil_append, hbar] at ih ⊢
      rw [ih]

theorem mem_intercalate_ofLiteral
    (h : x ∈ [Sign.plain '|'].intercalate (ts.map fun t => t.map Sign.ofLiteral)) :
    x = .plain '|' ∨ ∃ c, x = .ofLiteral c := by
  induction ts with
  | nil => cases h
  | cons t ts ih =>
    cases ts with
    | nil =>
      rw [List.map_singleton, List.intercalate_singleton] at h
      obtain ⟨c, -, rfl⟩ := List.mem_map.1 h
      exact .inr ⟨c, rfl⟩
    | cons t' ts =>
      rw [List.map_cons, List.map_cons, List.intercalate_cons_cons, List.append_assoc] at h
      rcases List.mem_append.1 h with h | h
      · obtain ⟨c, -, rfl⟩ := List.mem_map.1 h
        exact .inr ⟨c, rfl⟩
      · rcases List.mem_append.1 h with h | h
        · exact .inl (List.mem_singleton.1 h)
        · exact ih h

/-- Apart from the bars nothing that has to be escaped stands by itself. -/
theorem plain_not_mem_intercalate (ts : List (List Char)) (hc : needsEscape c = true)
    (hne : c ≠ '|') :
    .plain c ∉ [Sign.plain '|'].intercalate (ts.map fun t => t.map Sign.ofLiteral) := by
  intro h
  rcases mem_intercalate_ofLiteral h with heq | ⟨d, heq⟩
  · exact hne (congrArg Sign.char heq)
  · exact Sign.ofLiteral_ne_plain hc heq.symm

theorem splitOn_intercalate_ofLiteral (h : ts ≠ []) :
    ([Sign.plain '|'].intercalate (ts.map fun t => t.map Sign.ofLiteral)).splitOn (.plain '|') =
      ts.map fun t => t.map Sign.ofLiteral := by
  apply List.splitOn_intercalate
  · intro xs hxs hmem
    obtain ⟨t, -, rfl⟩ := List.mem_map.1 hxs
    obtain ⟨c, -, hc⟩ := List.mem_map.1 hmem
    exact Sign.ofLiteral_ne_plain rfl hc
  · simpa using h

theorem groups_append (h : .plain '(' ∉ xs) : groups (xs ++ ys) = groups ys := by
  induction xs with
  | nil => rfl
  | cons x xs ih =>
    have hx : x ≠ .plain '(' := by
      rintro rfl
      exact h List.mem_cons_self
    rw [List.cons_append, groups, if_neg hx, ih fun hxs => h (List.mem_cons_of_mem _ hxs)]

/-- A group without parentheses inside goes up to the one that closes it. -/
theorem groups_open (ho : .plain '(' ∉ xs) (hc : .plain ')' ∉ xs) :
    groups (.plain '(' :: (xs ++ .plain ')' :: ys)) = xs :: groups ys := by
  have htake : (xs ++ .plain ')' :: ys).takeWhile (fun y => decide (y ≠ .plain ')')) = xs := by
    rw [List.takeWhile_append_of_pos]
    · simp
    · intro y hy
      apply decide_eq_true
      rintro rfl
      exact hc hy
  have hclose : Sign.plain ')' ≠ .plain '(' := by decide
  rw [groups, if_pos rfl, htake, groups_append ho, groups, if_neg hclose]

/-- A gap of a tag comment, as signs. -/
def gapSigns : List Sign :=
  [.plain '[', .plain ' ', .escaped 't', .plain ']', .plain '*']

/-- The group of the aliases, as signs. -/
def aliasGroup (identifiers : List String) : List Sign :=
  [Sign.plain '|'].intercalate ((identifiers.map (·.toList)).map fun t => t.map Sign.ofLiteral)

theorem paren_not_mem_aliasGroup (hc : c = '(' ∨ c = ')') :
    Sign.plain c ∉ aliasGroup identifiers := by
  have hescape : needsEscape c = true ∧ c ≠ '|' := by
    rcases hc with rfl | rfl <;> decide
  exact plain_not_mem_intercalate (identifiers.map (·.toList)) hescape.1 hescape.2

theorem toList_tagComment (identifiers : List String) : (tagComment identifiers).toList =
    ['(', '#', ')', '[', ' ', '\\', 't', ']', '*', '('] ++
      (['|'].intercalate ((identifiers.map (·.toList)).map fun t => t.flatMap escapeChar) ++
        [')', '\\', 'n']) := by
  have hhead : "(#)[ \\t]*(".toList = ['(', '#', ')', '[', ' ', '\\', 't', ']', '*', '('] := rfl
  have haliases : (identifiers.map escape).map String.toList =
      (identifiers.map (·.toList)).map fun t => t.flatMap escapeChar := by
    simp [escape, Function.comp_def]
  rw [tagComment, String.toList_append, String.toList_append, String.toList_intercalate, hhead,
    haliases, List.append_assoc]
  rfl

theorem signs_tagComment (identifiers : List String) : signs (tagComment identifiers).toList =
    Sign.plain '(' :: ([Sign.plain '#'] ++ Sign.plain ')' :: (gapSigns ++ Sign.plain '(' ::
      (aliasGroup identifiers ++ Sign.plain ')' :: [Sign.escaped 'n']))) := by
  have hread : ∀ s, signs (['(', '#', ')', '[', ' ', '\\', 't', ']', '*', '('] ++ s) =
      [.plain '(', .plain '#', .plain ')', .plain '[', .plain ' ', .escaped 't', .plain ']',
        .plain '*', .plain '('] ++ signs s := fun _ => rfl
  rw [toList_tagComment, hread, signs_intercalate]
  rfl

theorem groups_tagComment (identifiers : List String) :
    groups (signs (tagComment identifiers).toList) = [[.plain '#'], aliasGroup identifiers] := by
  rw [signs_tagComment, groups_open (by decide) (by decide), groups_append (by decide),
    groups_open (paren_not_mem_aliasGroup (.inl rfl)) (paren_not_mem_aliasGroup (.inr rfl))]
  rfl

/-- The alternatives of a tag comment are the aliases that it is made of. -/
theorem alternatives?_tagComment (h : identifiers ≠ []) : alternatives? (tagComment identifiers) =
    some ((identifiers.map (·.toList)).map fun t => t.map Sign.ofLiteral) := by
  rw [alternatives?, groups_tagComment]
  exact congrArg some (splitOn_intercalate_ofLiteral (by simpa using h))

/-- A tag comment is made of one list of aliases only. -/
theorem tagComment_inj (h : identifiers ≠ []) (h' : identifiers' ≠ []) :
    tagComment identifiers = tagComment identifiers' ↔ identifiers = identifiers' := by
  constructor
  · intro heq
    have halternatives := congrArg alternatives? heq
    rw [alternatives?_tagComment h, alternatives?_tagComment h', Option.some.injEq]
      at halternatives
    have htexts := Sign.ofLiteral_injective.list_map.list_map halternatives
    exact Function.Injective.list_map (fun _ _ => String.toList_injective) htexts
  · rintro rfl
    rfl

end Pattern
end InjectionGrammar
