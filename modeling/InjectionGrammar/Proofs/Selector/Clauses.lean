import InjectionGrammar.Selector
import Mathlib.Algebra.Order.BigOperators.Group.List
import Mathlib.Algebra.Order.Group.Nat
import Mathlib.Data.List.Infix

/-! Clauses of a selector. Cutting it at its separators gives them back just if no scope brings a
separator with it; otherwise there are more parts than scopes. -/
namespace InjectionGrammar
namespace Selector

/-- The parts of a selector between its separators. -/
def parts (selector : String) : List String :=
  (selector.split ", ").toList.map (·.copy)

/-- Holds of a scope without a separator in it or a comma at its end. -/
def CommaSafe (scope : String) : Prop :=
  ¬[',', ' '] <:+: scope.toList ∧ scope.toList.getLast? ≠ some ','

instance : DecidablePred CommaSafe := fun _ => inferInstanceAs (Decidable (_ ∧ _))

/-- Cuts characters at each comma with a space behind it. -/
def cut : List Char → List (List Char)
  | [] => [[]]
  | ',' :: ' ' :: s => [] :: cut s
  | c :: s => (cut s).modifyHead (c :: ·)

variable {c : Char} {s : List Char} {ts : List (List Char)} {scope : String} {scopes : List String}

theorem cut_cons (h : ¬[',', ' '] <+: c :: s) : cut (c :: s) = (cut s).modifyHead (c :: ·) := by
  rw [cut.eq_def]
  split
  · next heq => cases heq
  · next heq =>
    cases heq
    simp at h
  · next heq =>
    cases heq
    rfl

theorem cut_ne_nil (s : List Char) : cut s ≠ [] := by
  fun_induction cut s with
  | case1 => simp
  | case2 s ih => simp
  | case3 c s h ih => simpa using ih

/-- A separator cuts wherever it stands, as it cannot overlap with another one. -/
theorem cut_append (s t : List Char) : cut (s ++ ',' :: ' ' :: t) = cut s ++ cut t := by
  fun_induction cut s with
  | case1 => rfl
  | case2 s ih => simp [cut, ih]
  | case3 c s h ih =>
    have hno : ¬[',', ' '] <+: c :: (s ++ ',' :: ' ' :: t) := by
      cases s with
      | nil => simp
      | cons d s => simpa [eq_comm] using h s
    obtain ⟨part, parts, hparts⟩ := List.exists_cons_of_ne_nil (cut_ne_nil s)
    rw [List.cons_append, cut_cons hno, ih, hparts]
    rfl

theorem cut_eq_singleton (h : ¬[',', ' '] <:+: s) : cut s = [s] := by
  induction s with
  | nil => rfl
  | cons c s ih =>
    rw [List.infix_cons_iff, not_or] at h
    rw [cut_cons h.1, ih h.2]
    rfl

theorem one_lt_length_cut (h : [',', ' '] <:+: s) : 1 < (cut s).length := by
  obtain ⟨before, after, rfl⟩ := h
  have hbefore := List.length_pos_of_ne_nil (cut_ne_nil before)
  have hafter := List.length_pos_of_ne_nil (cut_ne_nil after)
  simp only [List.append_assoc, List.cons_append, List.nil_append, cut_append, List.length_append]
  omega

theorem cut_intercalate (h : ts ≠ []) : cut ([',', ' '].intercalate ts) = ts.flatMap cut := by
  induction ts with
  | nil => exact absurd rfl h
  | cons t ts ih =>
    cases ts with
    | nil => simp
    | cons t' ts =>
      have hrest := ih (List.cons_ne_nil _ _)
      simp only [List.intercalate_cons_cons, List.append_assoc, List.cons_append, List.nil_append,
        cut_append, List.flatMap_cons] at hrest ⊢
      rw [hrest]

section Search
open String.Slice String.Slice.Pattern
variable {text : String.Slice} {first p : text.Pos} {before passed : String}

theorem copy_subslice (hle : first ≤ p) (hfirst : first.Splits before (passed ++ String.ofList s))
    (hp : p.Splits (before ++ passed) (String.ofList s)) :
    (text.subslice first p hle).toSlice.copy = passed := by
  obtain ⟨_, hcopy⟩ := copy_slice_eq_iff_splits.2 ⟨before, String.ofList s, hfirst, hp⟩
  rw [toSlice_subslice, hcopy]

theorem ofList_separator (s : List Char) :
    String.ofList (',' :: ' ' :: s) = ", " ++ String.ofList s := by
  rw [← String.toList_inj]
  simp

theorem not_matchesAt (h : ∀ s', c = ',' → s = ' ' :: s' → False)
    (hp : p.Splits before (String.ofList (c :: s))) : ¬Model.MatchesAt ", " p := by
  rw [Model.ForwardStringSearcher.matchesAt_iff_splits]
  rintro ⟨before', after, hmatch⟩
  have heq : c :: s = ',' :: ' ' :: after.toList := by
    simpa using congrArg String.toList (hp.eq hmatch).2
  obtain ⟨hc, hs⟩ := List.cons.inj heq
  exact h _ hc hs

/-- The search for separators goes through a text from the left. What it has passed since the last
one belongs to the first part of the rest. -/
theorem map_copy_split [Model.StrictPatternModel ", "] (hle : first ≤ p)
    (hfirst : first.Splits before (passed ++ String.ofList s))
    (hp : p.Splits (before ++ passed) (String.ofList s)) :
    (Model.split ", " first p hle).map (·.toSlice.copy) =
      ((cut s).modifyHead (passed.toList ++ ·)).map String.ofList := by
  fun_induction cut s generalizing first p before passed with
  | case1 =>
    obtain rfl := hp.eq_endPos_iff.2 rfl
    rw [Model.split_endPos, List.map_singleton, copy_subslice hle hfirst hp]
    simp
  | case2 s ih =>
    have hcopy := copy_subslice hle hfirst hp
    rw [ofList_separator] at hp
    have hmatch := Model.ForwardStringSearcher.isLongestMatchAt_iff_splits.2
      ⟨before ++ passed, String.ofList s, hp, hp.splits_rotateRight⟩
    have hrest : hp.rotateRight.Splits (before ++ passed ++ ", " ++ "") (String.ofList s) := by
      simpa using hp.splits_rotateRight
    rw [Model.split_eq_of_isLongestMatchAt hmatch, List.map_cons, hcopy,
      ih _ (by simpa using hrest) hrest]
    cases cut s <;> simp
  | case3 c s h ih =>
    have hno := not_matchesAt h hp
    rw [String.ofList_cons] at hp
    rw [String.ofList_cons, ← String.append_assoc] at hfirst
    have hnext := hp.next
    rw [String.append_assoc] at hnext
    rw [Model.split_eq_next_of_not_matchesAt hp.ne_endPos_of_singleton hno, ih _ hfirst hnext,
      List.modifyHead_modifyHead]
    simp [Function.comp_def]

theorem parts_eq (selector : String) :
    parts selector = (cut selector.toList).map String.ofList := by
  have hne : ", " ≠ "" := by decide
  have := Model.ForwardStringSearcher.strictPatternModel hne
  have := Model.ForwardStringSearcher.lawfulToForwardSearcherModel hne
  have hstart : selector.toSlice.startPos.Splits "" ("" ++ String.ofList selector.toList) := by
    simp
  have hsplit := map_copy_split (Std.le_refl _) hstart hstart
  rw [parts, String.split_eq_split_toSlice, toList_split_eq_splitToSubslice,
    toList_splitToSubslice_eq_modelSplit, List.map_map]
  refine hsplit.trans ?_
  cases cut selector.toList <;> simp

end Search

/-- A space makes a separator of a comma before it. -/
theorem separator_infix_append (s t : List Char) : [',', ' '] <:+: s ++ ' ' :: t ↔
    [',', ' '] <:+: s ∨ s.getLast? = some ',' ∨ [',', ' '] <:+: t := by
  induction s with
  | nil => simp [List.infix_cons_iff]
  | cons c s ih =>
    rw [List.cons_append, List.infix_cons_iff, List.infix_cons_iff, ih]
    cases s with
    | nil => simp [eq_comm (a := c)]
    | cons d s => simp [or_assoc]

theorem separator_infix_clause (scope : String) :
    [',', ' '] <:+: (clause scope).toList ↔ ¬CommaSafe scope := by
  have hclause : (clause scope).toList =
      'L' :: ':' :: (scope.toList ++ ' ' :: "-comment -(string - meta.embedded)".toList) := by
    simp [clause]
  have hhead : ∀ t, [',', ' '] <:+: 'L' :: ':' :: t ↔ [',', ' '] <:+: t := by
    simp [List.infix_cons_iff]
  have hend : ¬[',', ' '] <:+: "-comment -(string - meta.embedded)".toList := by decide
  rw [hclause, hhead, separator_infix_append, CommaSafe, not_and_or, not_not, not_not]
  simp only [hend, or_false]

theorem clause_injective : Function.Injective clause := by
  intro s t h
  simpa [clause, ← String.toList_inj] using h

theorem parts_clause (h : CommaSafe scope) : parts (clause scope) = [clause scope] := by
  have hno : ¬[',', ' '] <:+: (clause scope).toList := by
    rwa [separator_infix_clause, not_not]
  rw [parts_eq, cut_eq_singleton hno]
  simp

theorem length_parts_pos (selector : String) : 0 < (parts selector).length := by
  rw [parts_eq, List.length_map]
  exact List.length_pos_of_ne_nil (cut_ne_nil _)

theorem one_lt_length_parts_clause (h : ¬CommaSafe scope) :
    1 < (parts (clause scope)).length := by
  rw [parts_eq, List.length_map]
  exact one_lt_length_cut ((separator_infix_clause scope).2 h)

/-- A selector is cut between its clauses, and each of them as if it stood alone. -/
theorem parts_ofScopes (h : scopes ≠ []) :
    parts (ofScopes scopes) = scopes.flatMap fun s => parts (clause s) := by
  have hne : (scopes.map clause).map String.toList ≠ [] := by simpa using h
  have hsep : ", ".toList = [',', ' '] := rfl
  simp only [parts_eq, ofScopes, String.toList_intercalate, hsep, cut_intercalate hne,
    List.map_flatMap, List.flatMap_map]

theorem parts_ofScopes_of_safe (h : scopes ≠ []) (hsafe : ∀ s ∈ scopes, CommaSafe s) :
    parts (ofScopes scopes) = scopes.map clause := by
  rw [parts_ofScopes h, List.map_eq_flatMap]
  exact List.flatMap_congr fun s hs => parts_clause (hsafe s hs)

theorem length_lt_parts_ofScopes (h : ∃ s ∈ scopes, ¬CommaSafe s) :
    scopes.length < (parts (ofScopes scopes)).length := by
  obtain ⟨s, hs, hunsafe⟩ := h
  have hsum : (scopes.map fun _ => 1).sum < (scopes.map fun s => (parts (clause s)).length).sum :=
    List.sum_lt_sum _ _ (fun s _ => length_parts_pos _)
      ⟨s, hs, one_lt_length_parts_clause hunsafe⟩
  rw [parts_ofScopes (List.ne_nil_of_mem hs), List.length_flatMap]
  simpa using hsum

/-- The parts of a selector are its clauses just if all scopes are safe. So of lists of such scopes no
two have the same selector, and the selector of any other list has more parts than scopes. -/
theorem clauses_stay_apart (h : scopes ≠ []) :
    (parts (ofScopes scopes) = scopes.map clause ↔ ∀ s ∈ scopes, CommaSafe s) ∧
    (∀ scopes' : List String, scopes' ≠ [] → (∀ s ∈ scopes, CommaSafe s) →
      (∀ s ∈ scopes', CommaSafe s) → ofScopes scopes = ofScopes scopes' → scopes = scopes') ∧
    ((∃ s ∈ scopes, ¬CommaSafe s) → scopes.length < (parts (ofScopes scopes)).length) := by
  refine ⟨⟨?_, parts_ofScopes_of_safe h⟩, ?_, length_lt_parts_ofScopes⟩
  · intro hparts s hs
    by_contra hunsafe
    have hlength := length_lt_parts_ofScopes ⟨s, hs, hunsafe⟩
    rw [hparts, List.length_map] at hlength
    exact Nat.lt_irrefl _ hlength
  · intro scopes' h' hsafe hsafe' heq
    apply clause_injective.list_map
    rw [← parts_ofScopes_of_safe h hsafe, ← parts_ofScopes_of_safe h' hsafe', heq]

/-- Commas inside of scopes and a space before one are safe, a comma at the end is not. -/
theorem clauses_stay_apart_of_commas :
    parts (ofScopes ["a,b", " c"]) = ["L:a,b -comment -(string - meta.embedded)",
      "L: c -comment -(string - meta.embedded)"] ∧
    ofScopes ["a,b"] ≠ ofScopes ["a", "b"] ∧
    2 < (parts (ofScopes ["a,", "b"])).length := by
  refine ⟨?_, ?_, ?_⟩
  · exact (clauses_stay_apart (List.cons_ne_nil _ _)).1.2 (by decide)
  · intro heq
    have hsame := (clauses_stay_apart (List.cons_ne_nil "a,b" [])).2.1 ["a", "b"] (by decide)
      (by decide) (by decide) heq
    simp at hsame
  · exact (clauses_stay_apart (List.cons_ne_nil "a," ["b"])).2.2 (by decide)

end Selector
end InjectionGrammar
