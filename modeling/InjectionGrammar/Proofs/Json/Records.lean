import InjectionGrammar.Proofs.Json.Reading
import Mathlib.Data.List.Nodup

/-! Indented objects are read back as records. -/
namespace InjectionGrammar
namespace Json
namespace Layout
variable {σ α : Type} {l : Layout σ} {n fuel : Nat} {key : String} {v : Json}
  {ms ms' : List (String × Json)} {a b c : σ} {s t rest : List Char} {seen : List String}

/-- The members of an object take a record to another one, each by what its field reads. -/
inductive Fits (l : Layout σ) (n : Nat) : List (String × Json) → σ → σ → Prop where
  | nil (a : σ) : Fits l n [] a a
  | cons {key : String} {v : Json} {f : Field σ} {change : σ → σ} {ms : List (String × Json)}
      {a b : σ} (hf : l.fields.find? (·.name == key) = some f)
      (hv : Decodes f.read n v change) (hms : Fits l n ms (change a) b) :
      Fits l n ((key, v) :: ms) a b

namespace Fits

theorem append (h : Fits l n ms a b) (h' : Fits l n ms' b c) : Fits l n (ms ++ ms') a c := by
  induction h with
  | nil => exact h'
  | cons hf hv _ ih => exact .cons hf hv (ih h')

/-- A member that stands by itself, read by the field of its name. -/
theorem single {read : Reader α} {x : α} {set : α → σ → σ}
    (hf : l.fields.find? (·.name == key) = some ⟨key, read.map set⟩)
    (hv : Decodes read n v x) (a : σ) : Fits l n [(key, v)] a (set x a) :=
  .cons hf (hv.map set) (.nil _)

end Fits

theorem readMembers_step {first : Bool} {level : Nat} {p : Prop} {f : Field σ} {change : σ → σ}
    (hnext : nextMember first s = .ok (.item (key.toList.flatMap escapeChar ++
      '"' :: ':' :: ' ' :: (indented level v ++ t))))
    (hf : l.fields.find? (·.name == key) = some f) (hseen : key ∉ seen)
    (hv : Decodes f.read n v change)
    (hms : Except.YieldsIff p (l.readMembers fuel false (key :: seen) (change a) t) (b, rest)) :
    Except.YieldsIff (v.depth ≤ n ∧ p) (l.readMembers (fuel + 1) first seen a s) (b, rest) := by
  have hkey := readQuoted_escaped key (':' :: ' ' :: (indented level v ++ t))
  rw [readMembers, hnext, Except.ok_bind]
  simp only [hkey, Except.ok_bind, hf, List.contains_eq_mem, hseen, decide_false, colon_cons]
  exact (hv level _ t (skipSpace_blank_indented level v t)).bind hms

theorem readMembers_done {first : Bool} (hnext : nextMember first s = .ok (.done rest))
    (hmissing : l.missing? seen = none) :
    l.readMembers (fuel + 1) first seen a s = .ok (a, rest) := by
  rw [readMembers, hnext, Except.ok_bind]
  simp only [hmissing]

/-- The members seen are listed backwards; each comes once, and none that is needed is missing. -/
theorem readMembers_indented (level outer : Nat) (h : Fits l n ms a b)
    (hnodup : ((ms.map (·.1)).reverse ++ seen).Nodup)
    (hmissing : l.missing? ((ms.map (·.1)).reverse ++ seen) = none) (hfuel : ms.length < fuel) :
    Except.YieldsIff (depthOfMembers ms ≤ n)
      (l.readMembers fuel false seen a
        (indentedMembers level ms ++ (newline outer ++ '\x7d' :: rest))) (b, rest) := by
  induction h generalizing fuel seen with
  | nil a =>
    obtain ⟨fuel, rfl⟩ := Nat.exists_eq_succ_of_ne_zero (Nat.ne_of_gt hfuel)
    apply Except.YieldsIff.of_ok (Nat.zero_le n)
    rw [indentedMembers, List.nil_append]
    exact readMembers_done (nextMember_done false outer rest) hmissing
  | @cons key v f change ms a b hf hv hms ih =>
    obtain ⟨fuel, rfl⟩ := Nat.exists_eq_succ_of_ne_zero (Nat.ne_of_gt (Nat.zero_lt_of_lt hfuel))
    rw [List.map_cons, List.reverse_cons, List.append_assoc] at hnodup hmissing
    have hseen : key ∉ seen := (List.nodup_cons.1 (List.nodup_append.1 hnodup).2.1).1
    have hrest := ih hnodup hmissing (Nat.lt_of_succ_lt_succ hfuel)
    rw [indentedMembers]
    simp only [List.cons_append, List.append_assoc]
    refine (readMembers_step (nextMember_later level key _) hf hseen hv hrest).congr ?_
    rw [depthOfMembers, Nat.max_le]

theorem decodes_read_zero (l : Layout σ) (ms : List (String × Json)) (a : σ) :
    Decodes (l.read 0) 0 (.object ms) a := by
  intro level s rest hs
  refine .of_error (by simp [depth]) (e := ⟨.tooDeep, skipSpace s, 1⟩) ?_
  cases ms <;> rw [read, hs, indented] <;> rfl

/-- A record is read from an object whose members lead to it from the initial one. -/
theorem decodes_read (h : Fits l n ms l.initial a) (hnodup : (ms.map (·.1)).Nodup)
    (hmissing : l.missing? (ms.map (·.1)).reverse = none) :
    Decodes (l.read (n + 1)) (n + 1) (.object ms) a := by
  intro level s rest hs
  generalize hinit : l.initial = a₀ at h
  cases h with
  | nil =>
    refine .of_ok (by simp [depth, depthOfMembers]) ?_
    rw [read, hs, indented, hinit]
    exact readMembers_done rfl hmissing
  | @cons key v f change ms _ b hf hv hms =>
    have hnodup' : ((ms.map (·.1)).reverse ++ [key]).Nodup := by
      rw [← List.reverse_cons]
      exact List.nodup_reverse.2 hnodup
    have hmissing' : l.missing? ((ms.map (·.1)).reverse ++ [key]) = none := by
      rw [← List.reverse_cons]
      exact hmissing
    rw [indented] at hs
    simp only [List.cons_append, List.append_assoc, List.nil_append] at hs
    have hlen := length_le_indentedMembers (level + 1) ms
    rw [read, hs]
    change Except.YieldsIff _ (l.readMembers (_ + 1) true [] l.initial _) _
    rw [hinit]
    refine (readMembers_step (nextMember_first (level + 1) key _) hf List.not_mem_nil hv
      (readMembers_indented (level + 1) level hms hnodup' hmissing' ?_)).congr ?_
    · simp only [List.length_append, List.length_cons]
      omega
    · rw [depth, depthOfMembers]
      omega

end Layout

/-- The file of a value is read back if its containers nest as deep as they may at the most. -/
theorem run_toFile {α : Type} {read : Reader α} {n : Nat} {v : Json} {a : α}
    (h : Decodes read n v a) : Except.YieldsIff (v.depth ≤ n) (read.run v.toFile) a := by
  have htext : skipSpace v.toFile.toList = indented 0 v ++ ['\n'] := by
    rw [toFile, String.toList_ofList, skipSpace_indented]
  have hread := h 0 v.toFile.toList ['\n'] htext
  constructor
  · intro hn
    rw [Reader.run, hread.ok hn]
    rfl
  · intro hn
    obtain ⟨e, he⟩ := hread.error hn
    rw [Reader.run, he]
    exact ⟨_, rfl⟩

end Json
end InjectionGrammar
