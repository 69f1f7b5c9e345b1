/-! Chains of computations that may fail. -/
namespace Except
variable {ε ε' α β γ : Type} {x : Except ε α} {f : α → Except ε β} {a : α} {b : β} {e : ε}

@[simp] theorem ok_bind (a : α) (f : α → Except ε β) : (Except.ok a >>= f) = f a := rfl

@[simp] theorem error_bind (e : ε) (f : α → Except ε β) : (Except.error e >>= f) = .error e := rfl

theorem bind_eq_ok : (x >>= f) = .ok b ↔ ∃ a, x = .ok a ∧ f a = .ok b := by
  cases x <;> simp

theorem map_eq_ok {k : α → β} : x.map k = .ok b ↔ ∃ a, x = .ok a ∧ k a = b := by
  cases x <;> simp [Except.map]

theorem mapError_eq_ok {k : ε → ε'} : x.mapError k = .ok a ↔ x = .ok a := by
  cases x with
  | error e => exact ⟨nofun, nofun⟩
  | ok a' => exact ⟨fun h => congrArg _ (ok.inj h), fun h => congrArg _ (ok.inj h)⟩

theorem map_bind (x : Except ε α) (f : α → Except ε β) (k : β → γ) :
    (x >>= f).map k = x >>= fun a => (f a).map k := by
  cases x <;> rfl

theorem bind_map (x : Except ε α) (k : α → β) (f : β → Except ε γ) :
    (x.map k >>= f) = x >>= fun a => f (k a) := by
  cases x <;> rfl

theorem mapError_map (x : Except ε α) (g : ε → ε') (k : α → β) :
    (x.map k).mapError g = (x.mapError g).map k := by
  cases x <;> rfl

theorem toOption_map (x : Except ε α) (k : α → β) : (x.map k).toOption = x.toOption.map k := by
  cases x <;> rfl

theorem toOption_bind (x : Except ε α) (f : α → Except ε β) :
    (x >>= f).toOption = x.toOption.bind fun a => (f a).toOption := by
  cases x <;> rfl

theorem toOption_mapError (x : Except ε α) (g : ε → ε') :
    (x.mapError g).toOption = x.toOption := by
  cases x <;> rfl

theorem toOption_eq_some : x.toOption = some a ↔ x = .ok a := by
  cases x <;> simp [Except.toOption]

theorem toOption_eq_none (h : ∀ a, x ≠ .ok a) : x.toOption = none := by
  cases x with
  | error e => rfl
  | ok a => exact absurd rfl (h a)

/-- The computation yields a value exactly under a condition, and fails otherwise. -/
structure YieldsIff (p : Prop) (x : Except ε α) (a : α) : Prop where
  ok : p → x = .ok a
  error : ¬p → ∃ e, x = .error e

namespace YieldsIff
variable {p q : Prop}

theorem of_ok (hp : p) (h : x = .ok a) : YieldsIff p x a :=
  ⟨fun _ => h, fun hn => absurd hp hn⟩

theorem of_error (hp : ¬p) (h : x = .error e) : YieldsIff p x a :=
  ⟨fun hp' => absurd hp' hp, fun _ => ⟨e, h⟩⟩

theorem congr (h : YieldsIff p x a) (hpq : p ↔ q) : YieldsIff q x a := by
  rwa [← hpq]

theorem map (h : YieldsIff p x a) (g : α → β) : YieldsIff p (x.map g) (g a) := by
  constructor
  · intro hp
    rw [h.ok hp]
    rfl
  · intro hp
    obtain ⟨e, he⟩ := h.error hp
    exact ⟨e, by rw [he]; rfl⟩

theorem bind (h : YieldsIff p x a) (h' : YieldsIff q (f a) b) : YieldsIff (p ∧ q) (x >>= f) b := by
  constructor
  · rintro ⟨hp, hq⟩
    rw [h.ok hp, ok_bind, h'.ok hq]
  · intro hn
    by_cases hp : p
    · rw [h.ok hp, ok_bind]
      exact h'.error fun hq => hn ⟨hp, hq⟩
    · obtain ⟨e, he⟩ := h.error hp
      exact ⟨e, by rw [he, error_bind]⟩

theorem bind_ok (h : YieldsIff p x a) (hf : f a = .ok b) : YieldsIff p (x >>= f) b :=
  (h.bind (of_ok trivial hf)).congr (and_iff_left trivial)

end YieldsIff

end Except
