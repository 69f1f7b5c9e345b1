import InjectionGrammar.Proofs.Json.Scalar
import Mathlib.Logic.Function.Defs

/-! Indented values are told apart by their text, whatever stands behind it. -/
namespace InjectionGrammar
namespace Json

theorem quote_append_inj {k k' : String} {s s' : List Char} (h : quote k ++ s = quote k' ++ s') :
    k = k' ∧ s = s' := by
  rw [quote_append, quote_append] at h
  have hread := readQuoted_escaped k s
  rw [(List.cons.inj h).2, readQuoted_escaped] at hread
  obtain ⟨hk, hs⟩ := Prod.mk.inj (Except.ok.inj hread)
  exact ⟨hk.symm, hs.symm⟩

mutual

/-- The text of a value determines the value and where its text ends. Values of different kinds
differ in their first characters; the level is the same on both sides, so line breaks cancel. -/
theorem indented_append_inj : ∀ (v v' : Json) (level : Nat) (s s' : List Char),
    indented level v ++ s = indented level v' ++ s' → v = v' ∧ s = s'
  | .string k, v', level, s, s', h => by
    rcases v' with k' | (_ | _) | (_ | _)
    · rw [indented, indented] at h
      obtain ⟨rfl, rfl⟩ := quote_append_inj h
      exact ⟨rfl, rfl⟩
    all_goals simp [indented, quote] at h
  | .array [], v', level, s, s', h => by
    rcases v' with k' | (_ | _) | (_ | _)
    · simp [indented, quote] at h
    · simpa [indented] using h
    all_goals simp [indented, newline] at h
  | .array (v :: vs), v', level, s, s', h => by
    rcases v' with k' | (_ | ⟨v', vs'⟩) | (_ | _)
    · simp [indented, quote] at h
    · simp [indented, newline] at h
    · simp only [indented, List.cons_append, List.append_assoc, List.nil_append, List.cons.injEq,
        true_and, List.append_cancel_left_eq] at h
      obtain ⟨rfl, hvs⟩ := indented_append_inj v v' _ _ _ h
      obtain ⟨rfl, rfl⟩ := indentedItems_append_inj vs vs' _ _ _ _ hvs
      exact ⟨rfl, rfl⟩
    all_goals simp [indented] at h
  | .object [], v', level, s, s', h => by
    rcases v' with k' | (_ | _) | (_ | _)
    · simp [indented, quote] at h
    · simp [indented] at h
    · simp [indented] at h
    · simpa [indented] using h
    · simp [indented, newline] at h
  | .object ((k, v) :: ms), v', level, s, s', h => by
    rcases v' with k' | (_ | _) | (_ | ⟨⟨k', v'⟩, ms'⟩)
    · simp [indented, quote] at h
    · simp [indented] at h
    · simp [indented] at h
    · simp [indented, newline] at h
    · simp only [indented, List.cons_append, List.append_assoc, List.nil_append, List.cons.injEq,
        true_and, List.append_cancel_left_eq] at h
      obtain ⟨rfl, hv⟩ := quote_append_inj h
      simp only [List.cons.injEq, true_and] at hv
      obtain ⟨rfl, hms⟩ := indented_append_inj v v' _ _ _ hv
      obtain ⟨rfl, rfl⟩ := indentedMembers_append_inj ms ms' _ _ _ _ hms
      exact ⟨rfl, rfl⟩

theorem indentedItems_append_inj : ∀ (vs vs' : List Json) (level outer : Nat) (s s' : List Char),
    indentedItems level vs ++ (newline outer ++ ']' :: s) =
      indentedItems level vs' ++ (newline outer ++ ']' :: s') → vs = vs' ∧ s = s'
  | [], [], level, outer, s, s', h => by simpa [indentedItems] using h
  | [], _ :: _, level, outer, s, s', h => by simp [indentedItems, newline] at h
  | _ :: _, [], level, outer, s, s', h => by simp [indentedItems, newline] at h
  | v :: vs, v' :: vs', level, outer, s, s', h => by
    simp only [indentedItems, List.cons_append, List.append_assoc, List.cons.injEq, true_and,
      List.append_cancel_left_eq] at h
    obtain ⟨rfl, hvs⟩ := indented_append_inj v v' _ _ _ h
    obtain ⟨rfl, rfl⟩ := indentedItems_append_inj vs vs' _ _ _ _ hvs
    exact ⟨rfl, rfl⟩

theorem indentedMembers_append_inj : ∀ (ms ms' : List (String × Json)) (level outer : Nat)
    (s s' : List Char), indentedMembers level ms ++ (newline outer ++ '\x7d' :: s) =
      indentedMembers level ms' ++ (newline outer ++ '\x7d' :: s') → ms = ms' ∧ s = s'
  | [], [], level, outer, s, s', h => by simpa [indentedMembers] using h
  | [], _ :: _, level, outer, s, s', h => by simp [indentedMembers, newline] at h
  | _ :: _, [], level, outer, s, s', h => by simp [indentedMembers, newline] at h
  | (k, v) :: ms, (k', v') :: ms', level, outer, s, s', h => by
    simp only [indentedMembers, List.cons_append, List.append_assoc, List.cons.injEq, true_and,
      List.append_cancel_left_eq] at h
    obtain ⟨rfl, hv⟩ := quote_append_inj h
    simp only [List.cons.injEq, true_and] at hv
    obtain ⟨rfl, hms⟩ := indented_append_inj v v' _ _ _ hv
    obtain ⟨rfl, rfl⟩ := indentedMembers_append_inj ms ms' _ _ _ _ hms
    exact ⟨rfl, rfl⟩

end

/-- Files of different values differ. -/
theorem toFile_injective : Function.Injective toFile := by
  intro v v' h
  have htext : indented 0 v ++ ['\n'] = indented 0 v' ++ ['\n'] := by
    rw [toFile, toFile] at h
    exact String.ofList_injective h
  exact (indented_append_inj v v' 0 _ _ htext).1

end Json
end InjectionGrammar
