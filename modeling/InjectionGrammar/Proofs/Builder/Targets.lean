import InjectionGrammar.Proofs.Builder.Closure
import InjectionGrammar.Proofs.Pattern.Alternation
import InjectionGrammar.Proofs.Registry.Validation

/-! What a built grammar refers to, at any depth. Validation asks for one source that shows
something, so blank ones can stand beside it, and the grammar refers to these too. -/
namespace InjectionGrammar

/-- A rule, or a rule inside it at any depth, has the target. -/
inductive Rule.RefersTo : Rule → String → Prop where
  | here {r : Rule} {t : String} (h : r.target = some t) : RefersTo r t
  | inner {r i : Rule} {t : String} (hi : i ∈ r.patterns) (h : RefersTo i t) : RefersTo r t

/-- A rule of a grammar has the target, at any depth. -/
def Grammar.RefersTo (g : Grammar) (t : String) : Prop :=
  ∃ rule ∈ g.patterns ++ g.repository.entries.map (·.2), rule.RefersTo t

namespace Rule
variable {r : Rule} {t : String}

theorem refersTo_iff : r.RefersTo t ↔ r.target = some t ∨ ∃ i ∈ r.patterns, i.RefersTo t := by
  constructor
  · intro h
    cases h with
    | here h => exact .inl h
    | inner hi h => exact .inr ⟨_, hi, h⟩
  · rintro (h | ⟨i, hi, h⟩)
    · exact .here h
    · exact .inner hi h

theorem refersTo_reference (target : String) : (reference target).RefersTo t ↔ t = target := by
  rw [refersTo_iff]
  constructor
  · rintro (h | ⟨i, hi, -⟩)
    · exact (Option.some.inj h).symm
    · cases hi
  · rintro rfl
    exact .inl rfl

theorem refersTo_of_references {targets : List String} (htarget : r.target = none)
    (hpatterns : r.patterns = targets.map reference) : r.RefersTo t ↔ t ∈ targets := by
  rw [refersTo_iff, htarget, hpatterns]
  constructor
  · rintro (h | ⟨i, hi, h⟩)
    · cases h
    · obtain ⟨target, htarget, rfl⟩ := List.mem_map.1 hi
      rwa [(refersTo_reference target).1 h]
  · intro ht
    exact .inr ⟨_, List.mem_map_of_mem ht, (refersTo_reference t).2 rfl⟩

end Rule

namespace Language
variable {l : Language} {t : String}

/-- The rule of a language refers to its sources. -/
theorem refersTo_embedding : l.embedding.RefersTo t ↔ t ∈ l.source.toList := by
  have htarget : l.embedding.target = none := rfl
  have hpatterns : l.embedding.patterns = [l.fence] := rfl
  have hfence : l.fence.RefersTo t ↔ t ∈ l.source.toList := Rule.refersTo_of_references rfl rfl
  rw [Rule.refersTo_iff, htarget, hpatterns]
  simpa using hfence

theorem isBlankText_repositoryInclude (l : Language) :
    isBlankText l.repositoryInclude = false := by
  rw [isBlankText_eq_false_iff]
  refine ⟨'#', ?_, rfl⟩
  rw [repositoryInclude, String.toList_append]
  exact List.mem_append_left _ List.mem_cons_self

end Language

namespace Registry
variable {r : Registry} {o : Options} {g : Grammar} {l : Language} {rule : Rule} {t : String}

/-- The outer rule refers to the languages. -/
theorem refersTo_topLevel (h : rule ∈ r.topLevelPatterns) :
    rule.RefersTo t ↔ ∃ l ∈ r.languages, t = l.repositoryInclude := by
  obtain rfl := List.mem_singleton.1 h
  have hpatterns : r.languages.map (fun l => Rule.reference l.repositoryInclude) =
      (r.languages.map (·.repositoryInclude)).map Rule.reference := by
    rw [List.map_map]
    rfl
  rw [Rule.refersTo_of_references rfl hpatterns, List.mem_map]
  simp only [eq_comm]

/-- The rules of the languages and no others are filed. -/
theorem mem_values_of_grammar (h : r.grammar o = .ok g) :
    rule ∈ g.repository.entries.map (·.2) ↔ ∃ l ∈ r.languages, rule = l.embedding := by
  constructor
  · intro hrule
    obtain ⟨e, he, rfl⟩ := List.mem_map.1 hrule
    obtain ⟨m, hm, rfl⟩ := grammar_eq_ok.1 h
    exact exists_of_fileRules hm he
  · rintro ⟨l, hl, rfl⟩
    have hget := OrderedMap.get?_eq_some_iff.1 (rule?_of_grammar h hl)
    exact List.mem_map.2 ⟨_, hget, rfl⟩

/-- A grammar refers to its languages and to their sources. -/
theorem refersTo_of_grammar (h : r.grammar o = .ok g) : g.RefersTo t ↔
    (∃ l ∈ r.languages, t = l.repositoryInclude) ∨ ∃ l ∈ r.languages, t ∈ l.source.toList := by
  have hpatterns : g.patterns = r.topLevelPatterns := by
    obtain ⟨m, -, rfl⟩ := grammar_eq_ok.1 h
    rfl
  constructor
  · rintro ⟨rule, hrule, ht⟩
    rcases List.mem_append.1 hrule with hrule | hrule
    · rw [hpatterns] at hrule
      exact .inl ((refersTo_topLevel hrule).1 ht)
    · obtain ⟨l, hl, rfl⟩ := (mem_values_of_grammar h).1 hrule
      exact .inr ⟨l, hl, Language.refersTo_embedding.1 ht⟩
  · rintro (hlanguage | ⟨l, hl, ht⟩)
    · obtain ⟨outer, houter, -⟩ := r.targets_topLevelPatterns
      have hmem : outer ∈ r.topLevelPatterns := by simp [houter]
      refine ⟨outer, List.mem_append_left _ ?_, (refersTo_topLevel hmem).2 hlanguage⟩
      rwa [hpatterns]
    · refine ⟨l.embedding, List.mem_append_right _ ?_, Language.refersTo_embedding.2 ht⟩
      exact (mem_values_of_grammar h).2 ⟨l, hl, rfl⟩

/-- Languages without flaws have no empty alternatives in their rules. -/
theorem alternatives?_of_flaw?_eq_none (h : flaw? l = none) : ∃ p alternatives,
    l.embedding.opening = some p ∧ Pattern.alternatives? p = some alternatives ∧
      alternatives ≠ [] ∧ ∀ a ∈ alternatives, a ≠ [] := by
  obtain ⟨-, hne, hempty, -⟩ := flaw?_eq_none_iff.1 h
  refine ⟨l.tagPattern, _, rfl, Pattern.alternatives?_tagComment hne, by simpa using hne, ?_⟩
  intro xs hxs hnil
  obtain ⟨t, ht, rfl⟩ := List.mem_map.1 hxs
  obtain ⟨a, ha, rfl⟩ := List.mem_map.1 ht
  have ha' : a = "" := String.toList_eq_nil_iff.1 (List.map_eq_nil_iff.1 hnil)
  exact hempty (ha' ▸ ha)

/-- The grammar of a valid registry refers to a blank text just if that is one of the sources of a
language; each rule of a language refers to a source that shows something. No alternative in the
opening of a rule is empty. -/
theorem blank_targets_are_sources (h : r.validate = .ok ()) : ∃ g, r.grammar o = .ok g ∧
    (∀ t, isBlankText t = true → (g.RefersTo t ↔ ∃ l ∈ r.languages, t ∈ l.source.toList)) ∧
    (∀ l ∈ r.languages, ∃ rule, g.rule? l.repositoryKey = some rule ∧
      ∃ t, rule.RefersTo t ∧ isBlankText t = false) ∧
    ∀ e ∈ g.repository.entries, ∃ p alternatives, e.2.opening = some p ∧
      Pattern.alternatives? p = some alternatives ∧ alternatives ≠ [] ∧
        ∀ a ∈ alternatives, a ≠ [] := by
  obtain ⟨g, hg⟩ := grammar_of_validate h
  have hflaw : ∀ l ∈ r.languages, flaw? l = none := fun l hl => flaw?_of_checkFrom h hl
  refine ⟨g, hg, ?_, ?_, ?_⟩
  · intro t ht
    rw [refersTo_of_grammar hg]
    refine or_iff_right ?_
    rintro ⟨l, -, rfl⟩
    rw [l.isBlankText_repositoryInclude] at ht
    cases ht
  · intro l hl
    obtain ⟨-, -, -, t, ht, hshown⟩ := flaw?_eq_none_iff.1 (hflaw l hl)
    exact ⟨l.embedding, rule?_of_grammar hg hl, t, Language.refersTo_embedding.2 ht, hshown⟩
  · intro e he
    obtain ⟨l, hl, hrule⟩ := (mem_values_of_grammar hg).1 (List.mem_map_of_mem he)
    rw [hrule]
    exact alternatives?_of_flaw?_eq_none (hflaw l hl)

/-- A language with an empty source and one that shows something. -/
theorem blank_targets_are_sources_of_list : ∃ g,
    (Registry.mk [⟨"sql", ["sql"], .many ["", "source.sql"]⟩]).grammar
      ⟨"inline.sql", ["source.yaml"]⟩ = .ok g ∧ g.RefersTo "" ∧ ¬g.RefersTo " " := by
  have hvalid : (Registry.mk [⟨"sql", ["sql"], .many ["", "source.sql"]⟩]).validate = .ok () := by
    rfl
  obtain ⟨g, hg, hblank, -⟩ := blank_targets_are_sources hvalid
  refine ⟨g, hg, (hblank "" rfl).2 ?_, ?_⟩
  · exact ⟨_, List.mem_cons_self, List.mem_cons_self⟩
  · intro hspace
    obtain ⟨l, hl, ht⟩ := (hblank " " rfl).1 hspace
    obtain rfl := List.mem_singleton.1 hl
    simp [Source.toList] at ht

/-- A valid registry can have a grammar that refers to a blank text. -/
theorem validation_admits_blank_target : ¬∀ (r : Registry) (o : Options) (g : Grammar),
    r.validate = .ok () → r.grammar o = .ok g → ∀ t, g.RefersTo t → isBlankText t = false := by
  intro h
  have hvalid : (Registry.mk [⟨"sql", ["sql"], .many ["", "source.sql"]⟩]).validate = .ok () := by
    rfl
  obtain ⟨g, hg⟩ := grammar_of_validate (o := ⟨"inline.sql", ["source.yaml"]⟩) hvalid
  have hempty : g.RefersTo "" :=
    (refersTo_of_grammar hg).2 (.inr ⟨_, List.mem_cons_self, List.mem_cons_self⟩)
  exact absurd (h _ _ g hvalid hg "" hempty) (by decide)

end Registry
end InjectionGrammar
