import InjectionGrammar.Proofs.Builder.Dispatch

/-! The grammar of a registry is closed: its outer rule refers to the rules of the languages, to
each once, and nothing else is filed. -/
namespace InjectionGrammar
namespace Registry
variable {l : Language} {r : Registry} {o : Options} {g : Grammar}

/-- The keys are those of the languages, in an order of their own. -/
theorem keys_perm_of_grammar (h : r.grammar o = .ok g) :
    g.repository.keys.Perm (r.languages.map (·.repositoryKey)) := by
  refine (List.perm_ext_iff_of_nodup g.repository.keys_nodup (keys_nodup_of_grammar h)).2 ?_
  obtain ⟨m, hm, rfl⟩ := grammar_eq_ok.1 h
  intro k
  rw [OrderedMap.mem_keys, OrderedMap.contains, get?_fileRules hm, OrderedMap.get?_empty,
    Option.or_none, Option.isSome_map, List.find?_isSome]
  simp

theorem size_of_grammar (h : r.grammar o = .ok g) : g.repository.size = r.size := by
  have hlength := (keys_perm_of_grammar h).length_eq
  rwa [OrderedMap.keys, List.length_map, List.length_map] at hlength

/-- A target is a key of the repository behind its sign. -/
theorem mem_targets_of_grammar (h : r.grammar o = .ok g) {t : String} :
    t ∈ r.languages.map (·.repositoryInclude) ↔ ∃ k ∈ g.repository.keys, t = "#" ++ k := by
  simp only [(keys_perm_of_grammar h).mem_iff, List.mem_map, Language.repositoryInclude]
  constructor
  · rintro ⟨l, hl, rfl⟩
    exact ⟨_, ⟨l, hl, rfl⟩, rfl⟩
  · rintro ⟨_, ⟨l, hl, rfl⟩, rfl⟩
    exact ⟨l, hl, rfl⟩

theorem targets_nodup_of_grammar (h : r.grammar o = .ok g) :
    (r.languages.map (·.repositoryInclude)).Nodup := by
  have hkeys := keys_nodup_of_grammar h
  have hsign : Function.Injective ("#" ++ · : String → String) := by
    intro s s' heq
    exact (String.append_right_inj _).1 heq
  have htargets := hkeys.map hsign
  rwa [List.map_map] at htargets

theorem get?_of_names_nodup (h : (r.languages.map (·.name)).Nodup) (hl : l ∈ r.languages) :
    r.get? l.name = some l :=
  (find?_key_eq_some h).2 ⟨hl, rfl⟩

/-- The one inner rule of the rule of a language refers to its sources. -/
theorem targets_fence (l : Language) : l.fence.targets = l.source.toList := by
  change (l.source.toList.map Rule.reference).filterMap (·.target) = _
  rw [List.filterMap_map]
  exact List.filterMap_some

/-- The outer rule refers to the languages in order, and to each of them once; what it refers to is
what is filed, one rule for each language. A language is found by its name, and its rule under its
key; the one inner rule of that rule refers to the sources. -/
theorem references_are_rules (h : r.grammar o = .ok g) :
    (∃ outer, g.patterns = [outer] ∧ outer.targets = r.languages.map (·.repositoryInclude) ∧
      outer.targets.Nodup ∧ ∀ t, t ∈ outer.targets ↔ ∃ k ∈ g.repository.keys, t = "#" ++ k) ∧
    g.repository.size = r.size ∧
    ∀ l ∈ r.languages, r.get? l.name = some l ∧
      ∃ rule inner, l.rule = .ok rule ∧ g.rule? l.repositoryKey = some rule ∧
        rule.patterns = [inner] ∧ inner.targets = l.source.toList := by
  refine ⟨?_, size_of_grammar h, ?_⟩
  · obtain ⟨outer, houter, htargets⟩ := r.targets_topLevelPatterns
    obtain ⟨m, -, hg⟩ := grammar_eq_ok.1 h
    refine ⟨outer, ?_, htargets, ?_, ?_⟩
    · rw [hg, houter]
    · rw [htargets]
      exact targets_nodup_of_grammar h
    · intro t
      rw [htargets]
      exact mem_targets_of_grammar h
  · intro l hl
    refine ⟨get?_of_names_nodup (names_nodup_of_grammar h) hl, l.embedding, l.fence, ?_,
      rule?_of_grammar h hl, rfl, targets_fence l⟩
    obtain ⟨m, hm, -⟩ := grammar_eq_ok.1 h
    exact rule_of_fileRules hm hl

/-- Languages that are filed in another order, one with two sources. -/
theorem references_are_rules_of_two : ∃ g outer,
    (Registry.mk [⟨"sql", ["sql"], .one "source.sql"⟩, ⟨"c", ["c"], .many ["source.c", "#c"]⟩]
      ).grammar ⟨"inline.test", ["source.yaml"]⟩ = .ok g ∧ g.patterns = [outer] ∧
    outer.targets = ["#commentTaggedString-sql", "#commentTaggedString-c"] ∧
    g.repository.size = 2 ∧
    ∃ rule inner, g.rule? "commentTaggedString-c" = some rule ∧ rule.patterns = [inner] ∧
      inner.targets = ["source.c", "#c"] := by
  have hbuilt : (Registry.mk [⟨"sql", ["sql"], .one "source.sql"⟩,
      ⟨"c", ["c"], .many ["source.c", "#c"]⟩]).grammar ⟨"inline.test", ["source.yaml"]⟩ =
        .ok _ := rfl
  obtain ⟨⟨outer, houter, htargets, -, -⟩, hsize, hlanguages⟩ := references_are_rules hbuilt
  obtain ⟨-, rule, inner, -, hrule, hinner, hsources⟩ :=
    hlanguages ⟨"c", ["c"], .many ["source.c", "#c"]⟩ (by simp)
  exact ⟨_, outer, hbuilt, houter, htargets, hsize, rule, inner, hrule, hinner, hsources⟩

end Registry
end InjectionGrammar
