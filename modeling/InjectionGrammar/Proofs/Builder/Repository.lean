import InjectionGrammar.Builder
import InjectionGrammar.Proofs.OrderedMap

/-! The repository of a grammar: one rule for each language, under a key of its own. -/
namespace InjectionGrammar

theorem Language.repositoryKey_inj {l l' : Language} :
    l.repositoryKey = l'.repositoryKey ↔ l.name = l'.name := by
  simp [repositoryKey, ← String.toList_inj]

/-- A language has one rule, if any. -/
theorem Language.eq_embedding_of_rule {l : Language} {rule : Rule} (h : l.rule = .ok rule) :
    rule = l.embedding := by
  unfold Language.rule at h
  split at h <;> try cases h
  split at h <;> try cases h
  split at h <;> cases h
  rfl

namespace Registry
variable {m m' : OrderedMap String Rule} {l : Language} {ls : List Language} {r : Registry}
  {o : Options} {g : Grammar}

theorem fileRules_cons_eq_ok : fileRules m (l :: ls) = .ok m' ↔
    l.rule = .ok l.embedding ∧ m.contains l.repositoryKey = false ∧
      fileRules (m.insert l.repositoryKey l.embedding) ls = .ok m' := by
  cases hr : l.rule with
  | error f => simp [fileRules, hr]
  | ok rule =>
    obtain rfl := Language.eq_embedding_of_rule hr
    cases hc : m.contains l.repositoryKey <;> simp [fileRules, hr, hc]

/-- No language finds its key taken. -/
theorem contains_of_fileRules (h : fileRules m ls = .ok m') (hl : l ∈ ls) :
    m.contains l.repositoryKey = false := by
  induction ls generalizing m with
  | nil => cases hl
  | cons l' ls ih =>
    obtain ⟨-, hc, h⟩ := fileRules_cons_eq_ok.1 h
    rcases List.mem_cons.1 hl with rfl | hl
    · exact hc
    · have hin := ih h hl
      rw [OrderedMap.contains_insert, Bool.or_eq_false_iff] at hin
      exact hin.2

theorem names_nodup_of_fileRules (h : fileRules m ls = .ok m') :
    (ls.map (·.name)).Nodup := by
  induction ls generalizing m with
  | nil => exact List.nodup_nil
  | cons l ls ih =>
    obtain ⟨-, -, h⟩ := fileRules_cons_eq_ok.1 h
    refine List.nodup_cons.2 ⟨?_, ih h⟩
    intro hmem
    obtain ⟨l', hl', hname⟩ := List.mem_map.1 hmem
    have hin := contains_of_fileRules h hl'
    simp [OrderedMap.contains_insert, Language.repositoryKey_inj, hname] at hin

theorem rule_of_fileRules (h : fileRules m ls = .ok m') (hl : l ∈ ls) :
    l.rule = .ok l.embedding := by
  induction ls generalizing m with
  | nil => cases hl
  | cons l' ls ih =>
    obtain ⟨hr, -, h⟩ := fileRules_cons_eq_ok.1 h
    rcases List.mem_cons.1 hl with rfl | hl
    · exact hr
    · exact ih h hl

/-- A key leads to the rule of its language, and other keys to what they led to before. -/
theorem get?_fileRules (h : fileRules m ls = .ok m') (k : String) :
    m'.get? k = ((ls.find? fun l => l.repositoryKey = k).map (·.embedding)).or (m.get? k) := by
  induction ls generalizing m with
  | nil => cases h; simp
  | cons l ls ih =>
    obtain ⟨-, -, h⟩ := fileRules_cons_eq_ok.1 h
    rw [ih h, OrderedMap.get?_insert]
    by_cases hk : l.repositoryKey = k
    · have hnone : ls.find? (fun l => decide (l.repositoryKey = k)) = none := by
        rw [List.find?_eq_none]
        intro l' hl' hk'
        have hin := contains_of_fileRules h hl'
        simp_all [OrderedMap.contains_insert]
      simp [hk, hnone]
    · simp [hk]

/-- Only rules of languages are filed. -/
theorem exists_of_fileRules (h : fileRules .empty ls = .ok m) {e : String × Rule}
    (he : e ∈ m.entries) : ∃ l ∈ ls, e.2 = l.embedding := by
  have hget : m.get? e.1 = some e.2 := OrderedMap.get?_eq_some_iff.2 he
  rw [get?_fileRules h, OrderedMap.get?_empty, Option.or_none] at hget
  obtain ⟨l, hl, heq⟩ := Option.map_eq_some_iff.1 hget
  exact ⟨l, List.mem_of_find?_eq_some hl, heq.symm⟩

theorem grammar_eq_ok : r.grammar o = .ok g ↔
    ∃ m, fileRules .empty r.languages = .ok m ∧
      g = ⟨[], Selector.ofScopes o.targetScopes, r.topLevelPatterns, o.scopeName, m⟩ := by
  unfold grammar
  cases fileRules .empty r.languages <;> simp [eq_comm]

theorem injectionSelector_of_grammar (h : r.grammar o = .ok g) :
    g.injectionSelector = Selector.ofScopes o.targetScopes := by
  obtain ⟨m, -, rfl⟩ := grammar_eq_ok.1 h
  rfl

theorem names_nodup_of_grammar (h : r.grammar o = .ok g) : (r.languages.map (·.name)).Nodup := by
  obtain ⟨m, hm, -⟩ := grammar_eq_ok.1 h
  exact names_nodup_of_fileRules hm

theorem keys_nodup_of_grammar (h : r.grammar o = .ok g) :
    (r.languages.map (·.repositoryKey)).Nodup := by
  refine (List.nodup_map_iff_inj_on (names_nodup_of_grammar h).of_map).2 ?_
  intro l hl l' hl' hkey
  exact List.inj_on_of_nodup_map (names_nodup_of_grammar h) hl hl'
    (Language.repositoryKey_inj.1 hkey)

/-- The rule of a language is found under its key. -/
theorem rule?_of_grammar (h : r.grammar o = .ok g) (hl : l ∈ r.languages) :
    g.rule? l.repositoryKey = some l.embedding := by
  obtain ⟨m, hm, rfl⟩ := grammar_eq_ok.1 h
  change m.get? _ = _
  rw [get?_fileRules hm, (find?_key_eq_some (keys_nodup_of_grammar h)).2 ⟨hl, rfl⟩]
  rfl

end Registry
end InjectionGrammar
