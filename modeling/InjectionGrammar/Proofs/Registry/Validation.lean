import InjectionGrammar.Proofs.Builder.Repository
import InjectionGrammar.Proofs.Outcome
import Mathlib.Data.List.Induction

/-! Validation and the builder go through the languages of a registry side by side. -/
namespace InjectionGrammar

/-- No blank name other than the empty one, and no empty alias: what the builder does not look for
but validation does. -/
def Language.Tidy (l : Language) : Prop :=
  (isBlankText l.name = true → l.name = "") ∧ "" ∉ l.identifiers

namespace Registry
variable {α : Type} {m : OrderedMap String Rule} {l : Language} {ls : List Language}
  {names : List String} {f : Flaw} {r : Registry} {o : Options}

/-- A check of registries stops at a language that follows others: it passes those, and finds a flaw
as soon as the language is there. -/
def StopsAt (check : Registry → Except Flaw α) (before : List Language) (l : Language)
    (f : Flaw) : Prop :=
  (∃ a, check ⟨before⟩ = .ok a) ∧ check ⟨before ++ [l]⟩ = .error f

/-- A repository has the keys of the languages with the given names. -/
def Filed (m : OrderedMap String Rule) (names : List String) : Prop :=
  ∀ l : Language, m.contains l.repositoryKey = names.contains l.name

theorem filed_empty : Filed .empty [] := fun _ => rfl

theorem Filed.insert (h : Filed m names) (l : Language) (rule : Rule) :
    Filed (m.insert l.repositoryKey rule) (l.name :: names) := by
  intro l'
  rw [OrderedMap.contains_insert, h l', List.contains_cons]
  by_cases hn : l.name = l'.name
  · simp [Language.repositoryKey_inj, hn]
  · simp [Language.repositoryKey_inj, hn, Ne.symm hn]

theorem any_isEmpty_eq_false {as : List String} : as.any (·.isEmpty) = false ↔ "" ∉ as := by
  rw [List.any_eq_false]
  constructor
  · intro h hmem
    exact h "" hmem rfl
  · intro h a ha hempty
    exact h (String.isEmpty_iff.1 hempty ▸ ha)

/-- A language without flaws shows a name, aliases that are not empty and a source. -/
theorem flaw?_eq_none_iff : flaw? l = none ↔ isBlankText l.name = false ∧ l.identifiers ≠ [] ∧
    "" ∉ l.identifiers ∧ ∃ s ∈ l.source.toList, isBlankText s = false := by
  have hidentifiers : l.identifiers ≠ [] ↔ l.identifiers.isEmpty = false :=
    List.isEmpty_eq_false_iff.symm
  have hsource : (∃ s ∈ l.source.toList, isBlankText s = false) ↔ l.source.isEmpty = false := by
    simp [Source.isEmpty]
  rw [hidentifiers, ← any_isEmpty_eq_false, hsource, flaw?]
  cases isBlankText l.name <;> cases l.identifiers.isEmpty <;>
    cases l.identifiers.any (·.isEmpty) <;> cases l.source.isEmpty <;> simp

theorem checkFrom_cons_eq_ok : checkFrom names (l :: ls) = .ok () ↔
    flaw? l = none ∧ l.name ∉ names ∧ checkFrom (l.name :: names) ls = .ok () := by
  rw [checkFrom]
  cases flaw? l with
  | some f => simp
  | none => by_cases hn : l.name ∈ names <;> simp [hn]

/-- Languages pass if they have no flaws and new names. -/
theorem checkFrom_eq_ok_iff : checkFrom names ls = .ok () ↔ (∀ l ∈ ls, flaw? l = none) ∧
    (ls.map (·.name)).Nodup ∧ ∀ l ∈ ls, l.name ∉ names := by
  induction ls generalizing names with
  | nil => simp [checkFrom]
  | cons l ls ih =>
    have hnew : (∀ l' ∈ ls, l'.name ∉ l.name :: names) ↔
        l.name ∉ ls.map (·.name) ∧ ∀ l' ∈ ls, l'.name ∉ names := by
      simp only [List.mem_cons, not_or, List.mem_map, not_exists, not_and, forall_and]
    rw [checkFrom_cons_eq_ok, ih, hnew, List.forall_mem_cons, List.forall_mem_cons, List.map_cons,
      List.nodup_cons]
    tauto

theorem flaw?_of_checkFrom (h : checkFrom names ls = .ok ()) (hl : l ∈ ls) : flaw? l = none :=
  (checkFrom_eq_ok_iff.1 h).1 l hl

theorem names_nodup_of_validate (h : r.validate = .ok ()) : (r.languages.map (·.name)).Nodup :=
  (checkFrom_eq_ok_iff.1 h).2.1

theorem rule_of_flaw?_eq_none (h : flaw? l = none) : l.rule = .ok l.embedding := by
  have hname : l.name.isEmpty = false := by
    by_contra hne
    simp_all [flaw?]
  unfold flaw? at h
  split at h <;> try cases h
  split at h <;> try cases h
  split at h <;> try cases h
  simp_all [Language.rule]

theorem isBlankText_of_tidy (h : l.Tidy) : isBlankText l.name = l.name.isEmpty := by
  by_cases hn : l.name = ""
  · simp [hn]
  · cases hb : isBlankText l.name with
    | true => exact absurd (h.1 hb) hn
    | false => simp [hn]

/-- Of a tidy language the builder finds exactly the flaws that validation finds. -/
theorem rule_eq_of_tidy (h : l.Tidy) :
    l.rule = match flaw? l with
      | some f => .error f
      | none => .ok l.embedding := by
  have hid : l.identifiers.any (·.isEmpty) = false := any_isEmpty_eq_false.2 h.2
  unfold Language.rule flaw?
  rw [isBlankText_of_tidy h, hid, Bool.or_false]
  repeat' split
  all_goals simp_all

/-- What passes validation is filed. -/
theorem fileRules_of_checkFrom (hm : Filed m names) (h : checkFrom names ls = .ok ()) :
    ∃ m', fileRules m ls = .ok m' := by
  induction ls generalizing m names with
  | nil => exact ⟨m, rfl⟩
  | cons l ls ih =>
    obtain ⟨hf, hn, h⟩ := checkFrom_cons_eq_ok.1 h
    have hnew : m.contains l.repositoryKey = false := by
      rw [hm l]
      simpa using hn
    obtain ⟨m', hm'⟩ := ih (hm.insert l l.embedding) h
    exact ⟨m', fileRules_cons_eq_ok.2 ⟨rule_of_flaw?_eq_none hf, hnew, hm'⟩⟩

/-- Of tidy languages validation and the builder refuse the same one for the same flaw. -/
theorem fileRules_eq_error_iff (hm : Filed m names) (ht : ∀ l ∈ ls, l.Tidy) :
    fileRules m ls = .error f ↔ checkFrom names ls = .error f := by
  induction ls generalizing m names with
  | nil => simp [fileRules, checkFrom]
  | cons l ls ih =>
    rw [fileRules, checkFrom, rule_eq_of_tidy (ht l List.mem_cons_self), hm l]
    cases hf : flaw? l with
    | some f' => simp
    | none =>
      cases hn : names.contains l.name with
      | true => simp
      | false =>
        simp only [Bool.false_eq_true, if_false]
        exact ih (hm.insert l l.embedding) fun l' hl' => ht l' (List.mem_cons_of_mem _ hl')

theorem grammar_eq_error : r.grammar o = .error f ↔ fileRules .empty r.languages = .error f := by
  unfold grammar
  cases fileRules .empty r.languages <;> simp

theorem grammar_of_validate (h : r.validate = .ok ()) : ∃ g, r.grammar o = .ok g := by
  obtain ⟨m, hm⟩ := fileRules_of_checkFrom filed_empty h
  exact ⟨_, grammar_eq_ok.2 ⟨m, hm, rfl⟩⟩

theorem grammar_eq_error_iff (ht : ∀ l ∈ r.languages, l.Tidy) :
    r.grammar o = .error f ↔ r.validate = .error f :=
  grammar_eq_error.trans (fileRules_eq_error_iff filed_empty ht)

/-- Languages that come behind others are checked with the names of those. -/
theorem checkFrom_append (names : List String) (ls ls' : List Language) :
    checkFrom names (ls ++ ls') =
      checkFrom names ls >>= fun _ => checkFrom ((ls.map (·.name)).reverse ++ names) ls' := by
  induction ls generalizing names with
  | nil => rfl
  | cons l ls ih =>
    rw [List.cons_append, checkFrom, checkFrom]
    cases flaw? l with
    | some f => rfl
    | none =>
      cases hn : names.contains l.name with
      | true => simp
      | false => simp [ih]

theorem validate_append (ls ls' : List Language) : validate ⟨ls ++ ls'⟩ =
    validate ⟨ls⟩ >>= fun _ => checkFrom (ls.map (·.name)).reverse ls' := by
  simp [validate, checkFrom_append]

/-- Where languages are refused, one of them is the first that is. -/
theorem exists_stop_of_validate (h : validate ⟨ls⟩ = .error f) :
    ∃ before l after, ls = before ++ l :: after ∧ StopsAt validate before l f := by
  induction ls using List.reverseRecOn with
  | nil => cases h
  | append_singleton ls l ih =>
    cases hls : validate ⟨ls⟩ with
    | ok u => exact ⟨ls, l, [], rfl, ⟨u, hls⟩, h⟩
    | error f' =>
      rw [validate_append, hls, Except.error_bind] at h
      obtain ⟨before, l', after, rfl, hstop⟩ := ih (h ▸ hls)
      exact ⟨before, l', after ++ [l], by simp, hstop⟩

/-- Behind tidy languages the builder stops where validation does. -/
theorem stopsAt_grammar_of_validate {before : List Language} (ht : ∀ l' ∈ before ++ [l], l'.Tidy)
    (h : StopsAt validate before l f) : StopsAt (·.grammar o) before l f :=
  ⟨grammar_of_validate h.1.choose_spec, (grammar_eq_error_iff ht).2 h.2⟩

end Registry
end InjectionGrammar
