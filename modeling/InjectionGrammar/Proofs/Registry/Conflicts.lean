import InjectionGrammar.Registry
import Mathlib.Data.List.Basic

/-! A claim to an alias is a conflict if a language of another name answers to the alias. -/
namespace InjectionGrammar
namespace Registry
variable {a b name : String} {as : List String} {owners : Owners} {before after ls : List Language}
  {l l' w : Language} {r : Registry} {c : Conflict}

/-- The conflict of a claim, given the owner of the alias if it has one. -/
def conflict? (owner? : Option String) (name a : String) : Option Conflict :=
  owner?.bind fun winner => if winner = name then none else some ⟨a, winner, name⟩

/-- The name of the first language that answers to an alias. -/
def ownerAmong (ls : List Language) (a : String) : Option String :=
  (ls.find? fun l => l.answersTo a).map (·.name)

@[simp] theorem conflict?_none (name a : String) : conflict? none name a = none := rfl

@[simp] theorem conflict?_self (name a : String) : conflict? (some name) name a = none :=
  if_pos rfl

theorem conflict?_of_ne {winner : String} (h : winner ≠ name) :
    conflict? (some winner) name a = some ⟨a, winner, name⟩ :=
  if_neg h

theorem lookup_cons_of_ne (h : b ≠ a) : List.lookup b ((a, name) :: owners) = owners.lookup b := by
  rw [List.lookup_cons, beq_false_of_ne h]

/-- To own an alias that was free causes no conflict with oneself. -/
theorem conflict?_cons (h : owners.lookup a = none) (b : String) :
    conflict? (List.lookup b ((a, name) :: owners)) name b =
      conflict? (owners.lookup b) name b := by
  by_cases hb : b = a
  · subst hb
    rw [h, List.lookup_cons_self, conflict?_self, conflict?_none]
  · rw [lookup_cons_of_ne hb]

theorem conflicts_claim (name : String) (as : List String) (owners : Owners) :
    (claim name as owners).1 = as.filterMap fun b => conflict? (owners.lookup b) name b := by
  induction as generalizing owners with
  | nil => rfl
  | cons a as ih =>
    cases ho : owners.lookup a with
    | none => simp only [claim, ho, ih, conflict?_cons ho, List.filterMap_cons, conflict?_none]
    | some winner =>
      by_cases hw : winner = name
      · simp only [claim, ho, ih, hw, if_true, List.filterMap_cons, conflict?_self]
      · simp only [claim, ho, ih, hw, if_false, List.filterMap_cons, conflict?_of_ne hw]

/-- Aliases that were free go to the language that claims them. -/
theorem lookup_claim (name : String) (as : List String) (owners : Owners) (b : String) :
    (claim name as owners).2.lookup b =
      (owners.lookup b).or (if b ∈ as then some name else none) := by
  induction as generalizing owners with
  | nil => simp [claim]
  | cons a as ih =>
    cases ho : owners.lookup a with
    | none =>
      simp only [claim, ho, ih]
      by_cases hb : b = a
      · subst hb
        simp [ho]
      · simp [lookup_cons_of_ne hb, hb]
    | some winner =>
      have hclaim : (claim name (a :: as) owners).2 = (claim name as owners).2 := by
        simp only [claim, ho]
        split <;> rfl
      rw [hclaim, ih]
      by_cases hb : b = a
      · subst hb
        simp [ho]
      · simp [hb]

theorem ownerAmong_append (before ls : List Language) (a : String) :
    ownerAmong (before ++ ls) a = (ownerAmong before a).or (ownerAmong ls a) := by
  rw [ownerAmong, List.find?_append, Option.map_or]
  rfl

theorem ownerAmong_cons (l : Language) (ls : List Language) (a : String) :
    ownerAmong (l :: ls) a = if a ∈ l.identifiers then some l.name else ownerAmong ls a := by
  by_cases ha : a ∈ l.identifiers <;> simp [ownerAmong, Language.answersTo, ha]

/-- For the claims of a language it makes no difference which languages come later. -/
theorem conflict?_ownerAmong (h : a ∈ l.identifiers) :
    conflict? (ownerAmong (before ++ l :: ls) a) l.name a =
      conflict? (ownerAmong before a) l.name a := by
  rw [ownerAmong_append, ownerAmong_cons, if_pos h]
  cases ownerAmong before a with
  | none => exact conflict?_self l.name a
  | some winner => rfl

/-- The languages before have left their aliases with the first that claimed them; the induction
moves one language after the other to them. -/
theorem conflictsFrom_eq (h : ∀ b, owners.lookup b = ownerAmong before b) :
    conflictsFrom owners ls = ls.flatMap fun l =>
      l.identifiers.filterMap fun a => conflict? (ownerAmong (before ++ ls) a) l.name a := by
  induction ls generalizing owners before with
  | nil => rfl
  | cons l ls ih =>
    have howners : ∀ b, (claim l.name l.identifiers owners).2.lookup b =
        ownerAmong (before ++ [l]) b := by
      intro b
      rw [lookup_claim, ownerAmong_append, ownerAmong_cons, h]
      rfl
    have hclaims : l.identifiers.filterMap (fun b => conflict? (owners.lookup b) l.name b) =
        l.identifiers.filterMap fun a => conflict? (ownerAmong (before ++ l :: ls) a) l.name a := by
      apply List.filterMap_congr
      intro a ha
      rw [conflict?_ownerAmong ha, h]
    have hrest := ih howners
    rw [List.append_assoc, List.singleton_append] at hrest
    have hstep : conflictsFrom owners (l :: ls) = (claim l.name l.identifiers owners).1 ++
        conflictsFrom (claim l.name l.identifiers owners).2 ls := rfl
    rw [hstep, conflicts_claim, hclaims, hrest, List.flatMap_cons]

/-- Language by language, each claim to an alias that resolves to a language of another name. -/
theorem conflicts_eq (r : Registry) : r.conflicts = r.languages.flatMap fun l =>
    l.identifiers.filterMap fun a => conflict? ((r.resolve? a).map (·.name)) l.name a := by
  have howners : ∀ b, List.lookup b ([] : Owners) = ownerAmong [] b := fun _ => rfl
  exact conflictsFrom_eq howners

theorem mem_conflicts : c ∈ r.conflicts ↔ ∃ l ∈ r.languages, c.identifier ∈ l.identifiers ∧
    c.shadowed = l.name ∧ c.winner ≠ l.name ∧
      (r.resolve? c.identifier).map (·.name) = some c.winner := by
  rw [conflicts_eq, List.mem_flatMap]
  refine exists_congr fun l => and_congr_right fun _ => ?_
  rw [List.mem_filterMap]
  constructor
  · rintro ⟨a, ha, hc⟩
    obtain ⟨winner, hw, hc⟩ := Option.bind_eq_some_iff.1 hc
    split at hc
    · cases hc
    · next hne =>
      cases hc
      exact ⟨ha, rfl, hne, hw⟩
  · rintro ⟨ha, hs, hne, hw⟩
    refine ⟨c.identifier, ha, ?_⟩
    rw [hw, conflict?_of_ne hne, ← hs]

theorem resolve?_of_first (heq : r.languages = before ++ l :: after) (ha : a ∈ l.identifiers)
    (hb : ∀ k ∈ before, a ∉ k.identifiers) : r.resolve? a = some l := by
  refine List.find?_eq_some_iff_append.2 ⟨?_, before, after, heq, ?_⟩
  · exact List.contains_iff_mem.2 ha
  · intro k hk
    simpa [Language.answersTo] using hb k hk

theorem mem_conflicts_of_resolve? (hw : r.resolve? a = some w) (hl : l ∈ r.languages)
    (ha : a ∈ l.identifiers) (hne : w.name ≠ l.name) : ⟨a, w.name, l.name⟩ ∈ r.conflicts :=
  mem_conflicts.2 ⟨l, hl, ha, rfl, hne, by rw [hw]; rfl⟩

theorem mem_of_resolve? (h : r.resolve? a = some w) : w ∈ r.languages ∧ a ∈ w.identifiers := by
  obtain ⟨hanswers, -⟩ := List.find?_eq_some_iff_append.1 h
  exact ⟨List.mem_of_find?_eq_some h, List.contains_iff_mem.1 hanswers⟩

theorem exists_resolve? (hl : l ∈ r.languages) (ha : a ∈ l.identifiers) :
    ∃ w, r.resolve? a = some w := by
  apply Option.isSome_iff_exists.1
  rw [resolve?, List.find?_isSome]
  exact ⟨l, hl, List.contains_iff_mem.2 ha⟩

/-- An alias is reported if languages of two names claim it, and only then. -/
theorem exists_conflict_iff : (∃ c ∈ r.conflicts, c.identifier = a) ↔
    ∃ l ∈ r.languages, ∃ l' ∈ r.languages,
      a ∈ l.identifiers ∧ a ∈ l'.identifiers ∧ l.name ≠ l'.name := by
  constructor
  · rintro ⟨c, hc, rfl⟩
    obtain ⟨l, hl, ha, -, hne, hwinner⟩ := mem_conflicts.1 hc
    obtain ⟨w, hw, hname⟩ := Option.map_eq_some_iff.1 hwinner
    obtain ⟨hwr, haw⟩ := mem_of_resolve? hw
    exact ⟨w, hwr, l, hl, haw, ha, hname ▸ hne⟩
  · rintro ⟨l, hl, l', hl', ha, ha', hne⟩
    obtain ⟨w, hw⟩ := exists_resolve? hl ha
    -- the owner cannot have the names of both, so that one of them is shadowed
    by_cases hwl : w.name = l.name
    · exact ⟨_, mem_conflicts_of_resolve? hw hl' ha' (hwl ▸ hne), rfl⟩
    · exact ⟨_, mem_conflicts_of_resolve? hw hl ha hwl, rfl⟩

/-- Without conflicts all languages that claim an alias have one name. -/
theorem conflicts_eq_nil_iff : r.conflicts = [] ↔ ∀ l ∈ r.languages, ∀ l' ∈ r.languages,
    ∀ a, a ∈ l.identifiers → a ∈ l'.identifiers → l.name = l'.name := by
  rw [List.eq_nil_iff_forall_not_mem]
  constructor
  · intro hnil l hl l' hl' a ha ha'
    by_contra hne
    obtain ⟨c, hc, -⟩ := exists_conflict_iff.2 ⟨l, hl, l', hl', ha, ha', hne⟩
    exact hnil c hc
  · intro hnames c hc
    obtain ⟨l, hl, l', hl', ha, ha', hne⟩ := exists_conflict_iff.1 ⟨c, hc, rfl⟩
    exact hne (hnames l hl l' hl' c.identifier ha ha')

end Registry
end InjectionGrammar
