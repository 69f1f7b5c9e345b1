import InjectionGrammar.Proofs.Registry.Validation

/-! Validation accepts the well-formed registries. It refuses any other one for the first language
with a fault, so what comes behind that language does not matter. -/
namespace InjectionGrammar

namespace Language

/-- The name shows something. -/
def Named (l : Language) : Prop :=
  ∃ c ∈ l.name.toList, isBlank c = false

/-- There are aliases, and none of them is empty. -/
def Tagged (l : Language) : Prop :=
  l.identifiers ≠ [] ∧ "" ∉ l.identifiers

/-- One of the sources shows something. -/
def Sourced (l : Language) : Prop :=
  ∃ s ∈ l.source.toList, ∃ c ∈ s.toList, isBlank c = false

instance : DecidablePred Named := fun l =>
  inferInstanceAs (Decidable (∃ c ∈ l.name.toList, isBlank c = false))

instance : DecidablePred Tagged := fun _ => inferInstanceAs (Decidable (_ ∧ _))

instance : DecidablePred Sourced := fun l =>
  inferInstanceAs (Decidable (∃ s ∈ l.source.toList, ∃ c ∈ s.toList, isBlank c = false))

/-- What is wrong with a language that comes behind others. Of several faults it is the first of
these. -/
inductive FaultAfter (before : List Language) (l : Language) : Flaw → Prop where
  | name (h : ¬l.Named) : FaultAfter before l .emptyName
  | identifiers (hn : l.Named) (h : ¬l.Tagged) : FaultAfter before l (.noIdentifiers l.name)
  | source (hn : l.Named) (ht : l.Tagged) (h : ¬l.Sourced) :
      FaultAfter before l (.noSource l.name)
  | duplicate (hn : l.Named) (ht : l.Tagged) (hs : l.Sourced)
      (h : ∃ l' ∈ before, l'.name = l.name) : FaultAfter before l (.duplicateName l.name)

variable {l : Language}

theorem isBlankText_name : isBlankText l.name = true ↔ ¬l.Named := by
  rw [Named, ← isBlankText_eq_false_iff, Bool.not_eq_false]

theorem lacks_identifiers :
    (l.identifiers.isEmpty || l.identifiers.any (·.isEmpty)) = true ↔ ¬l.Tagged := by
  rw [Tagged, ← Registry.any_isEmpty_eq_false, ← List.isEmpty_eq_false_iff, ← Bool.or_eq_false_iff,
    Bool.not_eq_false]

theorem isEmpty_source : l.source.isEmpty = true ↔ ¬l.Sourced := by
  simp [Sourced, Source.isEmpty, isBlankText]

end Language

namespace Registry
variable {l : Language} {ls ls' before after : List Language} {names : List String} {f : Flaw}

theorem flaw?_eq (l : Language) : flaw? l =
    if ¬l.Named then some .emptyName
    else if ¬l.Tagged then some (.noIdentifiers l.name)
    else if ¬l.Sourced then some (.noSource l.name)
    else none := by
  simp only [flaw?, Language.isBlankText_name, Language.lacks_identifiers, Language.isEmpty_source]

theorem flaw?_eq_none_iff_sound : flaw? l = none ↔ l.Named ∧ l.Tagged ∧ l.Sourced := by
  simp only [flaw?_eq_none_iff, Language.Named, Language.Tagged, Language.Sourced,
    isBlankText_eq_false_iff, and_assoc]

/-- A fault of a language is a flaw of its own, or else a name that is taken. -/
theorem faultAfter_iff : l.FaultAfter before f ↔ flaw? l = some f ∨
    flaw? l = none ∧ (∃ l' ∈ before, l'.name = l.name) ∧ f = .duplicateName l.name := by
  constructor
  · intro h
    rw [flaw?_eq]
    cases h with
    | name h => simp [h]
    | identifiers hn h => simp [hn, h]
    | source hn ht h => simp [hn, ht, h]
    | duplicate hn ht hs h => simpa [hn, ht, hs] using h
  · rintro (h | ⟨h, htaken, rfl⟩)
    · rw [flaw?_eq] at h
      split at h
      · next hn =>
        cases h
        exact .name hn
      split at h
      · next hn ht =>
        cases h
        exact .identifiers (not_not.1 hn) ht
      split at h
      · next hn ht hs =>
        cases h
        exact .source (not_not.1 hn) (not_not.1 ht) hs
      · cases h
    · obtain ⟨hn, ht, hs⟩ := flaw?_eq_none_iff_sound.1 h
      exact .duplicate hn ht hs htaken

theorem checkFrom_singleton (hnames : ∀ n, n ∈ names ↔ ∃ l' ∈ before, l'.name = n) :
    checkFrom names [l] = .error f ↔ l.FaultAfter before f := by
  rw [faultAfter_iff, ← hnames, checkFrom]
  cases flaw? l with
  | some f' => simp
  | none => by_cases hn : l.name ∈ names <;> simp [hn, checkFrom, eq_comm]

theorem validate_concat_eq_error (h : validate ⟨before⟩ = .ok ()) :
    validate ⟨before ++ [l]⟩ = .error f ↔ l.FaultAfter before f := by
  rw [validate_append, h, Except.ok_bind]
  exact checkFrom_singleton (by simp)

theorem validate_append_of_error (h : validate ⟨ls⟩ = .error f) (ls' : List Language) :
    validate ⟨ls ++ ls'⟩ = .error f := by
  rw [validate_append, h, Except.error_bind]

theorem validate_of_append (h : validate ⟨ls ++ ls'⟩ = .ok ()) : validate ⟨ls⟩ = .ok () := by
  rw [validate_append] at h
  obtain ⟨_, hls, -⟩ := Except.bind_eq_ok.1 h
  exact hls

/-- Languages pass validation if none has a fault behind those before it. -/
theorem validate_eq_ok_iff_faultless : validate ⟨ls⟩ = .ok () ↔
    ∀ before l after, ls = before ++ l :: after → ∀ f, ¬l.FaultAfter before f := by
  constructor
  · rintro h before l after rfl f hf
    have hbefore := validate_of_append h
    rw [List.append_cons] at h
    rw [← validate_concat_eq_error hbefore, validate_of_append h] at hf
    cases hf
  · intro h
    cases hv : validate ⟨ls⟩ with
    | ok u => rfl
    | error f =>
      obtain ⟨before, l, after, heq, ⟨u, hbefore⟩, hl⟩ := exists_stop_of_validate hv
      exact absurd ((validate_concat_eq_error hbefore).1 hl) (h before l after heq f)

/-- A registry passes validation just if its languages have what they need and names of their own.
Otherwise the error is that of the first language with a fault behind those before it, whatever
languages come later. -/
theorem validation_finds_first_fault (r : Registry) :
    (r.validate = .ok () ↔ (∀ l ∈ r.languages, l.Named ∧ l.Tagged ∧ l.Sourced) ∧
      (r.languages.map (·.name)).Nodup) ∧
    (∀ f, r.validate = .error f ↔ ∃ before l after, r.languages = before ++ l :: after ∧
      (∀ b l' a, before = b ++ l' :: a → ∀ f', ¬l'.FaultAfter b f') ∧ l.FaultAfter before f) ∧
    ∀ f more, r.validate = .error f → validate ⟨r.languages ++ more⟩ = .error f := by
  refine ⟨?_, ?_, fun f more h => validate_append_of_error h more⟩
  · rw [validate, checkFrom_eq_ok_iff]
    simp [flaw?_eq_none_iff_sound]
  · intro f
    constructor
    · intro h
      obtain ⟨before, l, after, heq, ⟨u, hbefore⟩, hl⟩ := exists_stop_of_validate h
      exact ⟨before, l, after, heq, validate_eq_ok_iff_faultless.1 hbefore,
        (validate_concat_eq_error hbefore).1 hl⟩
    · rintro ⟨before, l, after, heq, hbefore, hl⟩
      have hstop := (validate_concat_eq_error (validate_eq_ok_iff_faultless.2 hbefore)).2 hl
      have h := validate_append_of_error hstop after
      rwa [← List.append_cons, ← heq] at h

/-- A language with two faults behind one without, in front of others that have faults as well. -/
theorem validation_finds_first_fault_of_two :
    validate ⟨[⟨"sql", ["sql"], .one "source.sql"⟩, ⟨"odd", ["odd", ""], .many []⟩]⟩ =
      .error (.noIdentifiers "odd") ∧
    validate ⟨[⟨"sql", ["sql"], .one "source.sql"⟩, ⟨"odd", ["odd", ""], .many []⟩] ++
      [⟨"", [], .many []⟩, ⟨"sql", ["sql"], .one "source.sql"⟩]⟩ = .error (.noIdentifiers "odd") := by
  have hfirst : validate ⟨[⟨"sql", ["sql"], .one "source.sql"⟩, ⟨"odd", ["odd", ""], .many []⟩]⟩ =
      .error (.noIdentifiers "odd") := rfl
  exact ⟨hfirst, (validation_finds_first_fault _).2.2 _ _ hfirst⟩

end Registry
end InjectionGrammar
