import InjectionGrammar.Pattern

/-! The regular expressions that tag comments are made of, and the texts that they match. -/
namespace InjectionGrammar
namespace Pattern

/-- The characters between the sign of a comment and its alias. -/
def isGap (c : Char) : Bool :=
  c = ' ' || c = '\t'

/-- A regular expression without captures; a gap is any number of spaces and tabs. -/
inductive Expression where
  | empty
  | char (c : Char)
  | gap
  | seq (e f : Expression)
  | either (e f : Expression)
  deriving DecidableEq, Repr

namespace Expression
variable {e f : Expression} {c : Char} {s t u v : List Char}

/-- The texts that an expression stands for. -/
inductive Denotes : Expression → List Char → Prop where
  | empty : Denotes .empty []
  | char (c : Char) : Denotes (.char c) [c]
  | gap {u : List Char} (h : ∀ c ∈ u, isGap c = true) : Denotes .gap u
  | seq {e f : Expression} {u v : List Char} (he : Denotes e u) (hf : Denotes f v) :
      Denotes (.seq e f) (u ++ v)
  | left {e f : Expression} {u : List Char} (h : Denotes e u) : Denotes (.either e f) u
  | right {e f : Expression} {u : List Char} (h : Denotes f u) : Denotes (.either e f) u

/-- What may be left of a text behind a gap, the longest gap first. -/
def gapRests : List Char → List (List Char)
  | [] => [[]]
  | c :: s => if isGap c then gapRests s ++ [c :: s] else [c :: s]

/-- What may be left of a text behind a match, in the order in which matches are tried. -/
def rests : Expression → List Char → List (List Char)
  | .empty, s => [s]
  | .char _, [] => []
  | .char c, d :: s => if c = d then [s] else []
  | .gap, s => gapRests s
  | .seq e f, s => (e.rests s).flatMap f.rests
  | .either e f, s => e.rests s ++ f.rests s

/-- Whether a text begins with a match. -/
def begins (e : Expression) (s : List Char) : Bool :=
  !(e.rests s).isEmpty

@[simp] theorem denotes_empty : Denotes .empty u ↔ u = [] := by
  constructor
  · rintro ⟨⟩
    rfl
  · rintro rfl
    exact .empty

@[simp] theorem denotes_char : Denotes (.char c) u ↔ u = [c] := by
  constructor
  · rintro ⟨⟩
    rfl
  · rintro rfl
    exact .char c

@[simp] theorem denotes_gap : Denotes .gap u ↔ ∀ c ∈ u, isGap c = true := by
  constructor
  · intro h
    cases h with
    | gap h => exact h
  · exact .gap

@[simp] theorem denotes_seq :
    Denotes (.seq e f) u ↔ ∃ v w, Denotes e v ∧ Denotes f w ∧ u = v ++ w := by
  constructor
  · intro h
    cases h with
    | seq he hf => exact ⟨_, _, he, hf, rfl⟩
  · rintro ⟨v, w, he, hf, rfl⟩
    exact .seq he hf

@[simp] theorem denotes_either : Denotes (.either e f) u ↔ Denotes e u ∨ Denotes f u := by
  constructor
  · intro h
    cases h with
    | left h => exact .inl h
    | right h => exact .inr h
  · rintro (h | h)
    · exact .left h
    · exact .right h

theorem mem_gapRests : t ∈ gapRests s ↔ ∃ u, (∀ c ∈ u, isGap c = true) ∧ s = u ++ t := by
  induction s with
  | nil =>
    rw [gapRests, List.mem_singleton]
    constructor
    · rintro rfl
      exact ⟨[], by simp, rfl⟩
    · rintro ⟨u, -, h⟩
      exact (List.append_eq_nil_iff.1 h.symm).2
  | cons c s ih =>
    have hwhole : ∃ u, (∀ x ∈ u, isGap x = true) ∧ c :: s = u ++ c :: s := ⟨[], by simp, rfl⟩
    constructor
    · intro h
      rw [gapRests] at h
      split at h
      · next hc =>
        rcases List.mem_append.1 h with h | h
        · obtain ⟨u, hu, rfl⟩ := ih.1 h
          exact ⟨c :: u, by simpa [hc] using hu, rfl⟩
        · rwa [List.mem_singleton.1 h]
      · rwa [List.mem_singleton.1 h]
    · rintro ⟨u, hu, h⟩
      cases u with
      | nil =>
        obtain rfl : c :: s = t := h
        rw [gapRests]
        split <;> simp
      | cons d u =>
        obtain ⟨rfl, rfl⟩ := List.cons.inj h
        have ht := ih.2 ⟨u, fun x hx => hu x (List.mem_cons_of_mem _ hx), rfl⟩
        rw [gapRests, if_pos (hu c List.mem_cons_self)]
        exact List.mem_append_left _ ht

/-- The search for matches finds what the expression stands for, and nothing else. -/
theorem mem_rests : t ∈ e.rests s ↔ ∃ u, e.Denotes u ∧ s = u ++ t := by
  induction e generalizing s t with
  | empty => simp [rests, eq_comm]
  | char c =>
    cases s with
    | nil => simp [rests]
    | cons d s =>
      rw [rests]
      split
      · next h => simp [h, eq_comm]
      · next h => simpa using fun hd _ => h hd.symm
  | gap => simpa [rests] using mem_gapRests
  | seq e f he hf =>
    simp only [rests, List.mem_flatMap, he, hf, denotes_seq]
    constructor
    · rintro ⟨s', ⟨v, hv, rfl⟩, w, hw, rfl⟩
      exact ⟨v ++ w, ⟨v, w, hv, hw, rfl⟩, (List.append_assoc v w t).symm⟩
    · rintro ⟨u, ⟨v, w, hv, hw, rfl⟩, rfl⟩
      exact ⟨w ++ t, ⟨v, hv, List.append_assoc v w t⟩, w, hw, rfl⟩
  | either e f he hf =>
    simp only [rests, List.mem_append, he, hf, denotes_either]
    constructor
    · rintro (⟨u, hu, rfl⟩ | ⟨u, hu, rfl⟩)
      · exact ⟨u, .inl hu, rfl⟩
      · exact ⟨u, .inr hu, rfl⟩
    · rintro ⟨u, hu | hu, rfl⟩
      · exact .inl ⟨u, hu, rfl⟩
      · exact .inr ⟨u, hu, rfl⟩

theorem begins_iff : e.begins s = true ↔ ∃ u t, e.Denotes u ∧ s = u ++ t := by
  rw [begins, Bool.not_eq_true', List.isEmpty_eq_false_iff_exists_mem]
  constructor
  · rintro ⟨t, ht⟩
    obtain ⟨u, hu, rfl⟩ := mem_rests.1 ht
    exact ⟨u, t, hu, rfl⟩
  · rintro ⟨u, t, hu, rfl⟩
    exact ⟨t, mem_rests.2 ⟨u, hu, rfl⟩⟩

end Expression
end Pattern
end InjectionGrammar
