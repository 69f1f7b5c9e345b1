import InjectionGrammar.Proofs.Builder.Dispatch
import InjectionGrammar.Proofs.Registry.Conflicts
import InjectionGrammar.Proofs.Registry.Validation

/-! A comment that tags two languages shows up as a conflict, unless an alias of one of them is an
alias of the other behind spaces and tabs: conflicts compare aliases, comments skip the gap. -/
namespace InjectionGrammar

namespace Language
variable {l l' : Language} {text : String}

/-- A comment shows an alias of the first language that is an alias of the second one behind spaces
and tabs. -/
def Indents (l l' : Language) (text : String) : Prop :=
  ∃ a ∈ l.identifiers, ∃ a' ∈ l'.identifiers, ∃ v w : List Char, v ≠ [] ∧
    (∀ c ∈ w ++ v, Pattern.isGap c = true) ∧ a.toList = v ++ a'.toList ∧
      text.toList = w ++ a.toList

theorem not_indents (h : ∀ a ∈ l.identifiers, ∀ c ∈ a.toList.head?, Pattern.isGap c = false) :
    ¬l.Indents l' text := by
  rintro ⟨a, ha, a', -, v, w, hne, hgap, heq, -⟩
  obtain ⟨c, v, rfl⟩ := List.exists_cons_of_ne_nil hne
  have hc := hgap c (List.mem_append_right w List.mem_cons_self)
  have hhead := h a ha c (by simp [heq])
  rw [hc] at hhead
  cases hhead

theorem taggedBy_of_indents (h : l.Indents l' text) : l.TaggedBy text ∧ l'.TaggedBy text := by
  obtain ⟨a, ha, a', ha', v, w, -, hgap, hv, heq⟩ := h
  have hw : ∀ c ∈ w, Pattern.isGap c = true := fun c hc => hgap c (List.mem_append_left v hc)
  refine ⟨⟨a, ha, w, hw, heq⟩, a', ha', w ++ v, hgap, ?_⟩
  rw [heq, hv, List.append_assoc]

/-- An alias that is another one behind a gap indents it, unless the gap is empty. -/
theorem eq_or_indents {a a' : String} {v w : List Char} (ha : a ∈ l.identifiers)
    (ha' : a' ∈ l'.identifiers) (hgap : ∀ c ∈ w ++ v, Pattern.isGap c = true)
    (hv : a.toList = v ++ a'.toList) (heq : text.toList = w ++ a.toList) :
    a = a' ∨ l.Indents l' text := by
  by_cases hne : v = []
  · subst hne
    exact .inl (String.toList_injective hv)
  · exact .inr ⟨a, ha, a', ha', v, w, hne, hgap, hv, heq⟩

/-- Of two gaps before the ends of one text, one begins with the other; what it has more belongs to
the alias that is shown behind the shorter one. -/
theorem taggedBy_both_iff : l.TaggedBy text ∧ l'.TaggedBy text ↔
    (∃ a ∈ l.identifiers, a ∈ l'.identifiers ∧ ∃ w : List Char,
      (∀ c ∈ w, Pattern.isGap c = true) ∧ text.toList = w ++ a.toList) ∨
    l.Indents l' text ∨ l'.Indents l text := by
  constructor
  · rintro ⟨⟨a, ha, w, hw, heq⟩, a', ha', w', hw', heq'⟩
    have hboth : w ++ a.toList = w' ++ a'.toList := heq.symm.trans heq'
    rcases List.append_eq_append_iff.1 hboth with ⟨v, rfl, hv⟩ | ⟨v, rfl, hv⟩
    · rcases eq_or_indents ha ha' hw' hv heq with rfl | hindents
      · exact .inl ⟨a, ha, ha', w, hw, heq⟩
      · exact .inr (.inl hindents)
    · rcases eq_or_indents ha' ha hw hv heq' with rfl | hindents
      · exact .inl ⟨a', ha, ha', w', hw', heq'⟩
      · exact .inr (.inr hindents)
  · rintro (⟨a, ha, ha', w, hw, heq⟩ | h | h)
    · exact ⟨⟨a, ha, w, hw, heq⟩, a, ha', w, hw, heq⟩
    · exact taggedBy_of_indents h
    · exact (taggedBy_of_indents h).symm

end Language

namespace Registry
variable {r : Registry} {l l' : Language} {before after : List Language} {text : String}

/-- In a valid registry a rule opens on the comments that tag its language. -/
theorem opensOn_of_validate (h : r.validate = .ok ()) (ht : '\n' ∉ text.toList)
    (hl : l ∈ r.languages) : l.embedding.opensOn (commentLine text) = true ↔ l.TaggedBy text := by
  obtain ⟨g, hg⟩ := grammar_of_validate (o := ⟨"", []⟩) h
  exact Language.opensOn_embedding (identifiers_of_grammar hg hl) ht

theorem eq_or_indents_of_conflicts_eq_nil (hnames : (r.languages.map (·.name)).Nodup)
    (hnil : r.conflicts = []) (hl : l ∈ r.languages) (hl' : l' ∈ r.languages)
    (ht : l.TaggedBy text) (ht' : l'.TaggedBy text) :
    l = l' ∨ l.Indents l' text ∨ l'.Indents l text := by
  rcases Language.taggedBy_both_iff.1 ⟨ht, ht'⟩ with ⟨a, ha, ha', -⟩ | hindents
  · have hname := conflicts_eq_nil_iff.1 hnil l hl l' hl' a ha ha'
    exact .inl (List.inj_on_of_nodup_map hnames hl hl' hname)
  · exact .inr hindents

/-- The first language that a comment tags owns the aliases that it shows. -/
theorem conflict_or_indents_of_first (hnames : (r.languages.map (·.name)).Nodup)
    (heq : r.languages = before ++ l :: after) (hfirst : ∀ k ∈ before, ¬k.TaggedBy text)
    (hafter : l' ∈ after) (ht : l.TaggedBy text) (ht' : l'.TaggedBy text) :
    (∃ a, ⟨a, l.name, l'.name⟩ ∈ r.conflicts) ∨ l.Indents l' text ∨ l'.Indents l text := by
  rcases Language.taggedBy_both_iff.1 ⟨ht, ht'⟩ with ⟨a, ha, ha', w, hw, hshown⟩ | hindents
  · have hbefore : ∀ k ∈ before, a ∉ k.identifiers :=
      fun k hk hak => hfirst k hk ⟨a, hak, w, hw, hshown⟩
    have hl' : l' ∈ r.languages := by simp [heq, hafter]
    have hname : l.name ≠ l'.name := by
      intro hname
      rw [heq, List.map_append, List.map_cons] at hnames
      have htail := List.nodup_cons.1 (List.nodup_append.1 hnames).2.1
      exact htail.1 (List.mem_map.2 ⟨l', hafter, hname.symm⟩)
    exact .inl ⟨a, mem_conflicts_of_resolve? (resolve?_of_first heq ha hbefore) hl' ha' hname⟩
  · exact .inr hindents

/-- Without conflicts a comment tags one language at the most; of several that it tags the first is
named as the winner over each other one. Excepted are two languages if the alias that it shows of
one of them is that of the other behind spaces and tabs. -/
theorem conflicts_report_shadowing (h : r.validate = .ok ()) (ht : '\n' ∉ text.toList) :
    (r.conflicts = [] → ∀ l ∈ r.languages, ∀ l' ∈ r.languages,
      l.embedding.opensOn (commentLine text) = true →
      l'.embedding.opensOn (commentLine text) = true →
      l = l' ∨ l.Indents l' text ∨ l'.Indents l text) ∧
    ∀ before l after, r.languages = before ++ l :: after →
      l.embedding.opensOn (commentLine text) = true →
      (∀ k ∈ before, ¬k.embedding.opensOn (commentLine text) = true) →
      ∀ l' ∈ after, l'.embedding.opensOn (commentLine text) = true →
        (∃ a, ⟨a, l.name, l'.name⟩ ∈ r.conflicts) ∨ l.Indents l' text ∨ l'.Indents l text := by
  have hnames := names_nodup_of_validate h
  have hopens : ∀ l ∈ r.languages,
      l.embedding.opensOn (commentLine text) = true ↔ l.TaggedBy text :=
    fun l hl => opensOn_of_validate h ht hl
  constructor
  · intro hnil l hl l' hl' hl_opens hl'_opens
    exact eq_or_indents_of_conflicts_eq_nil hnames hnil hl hl' ((hopens l hl).1 hl_opens)
      ((hopens l' hl').1 hl'_opens)
  · intro before l after heq hl_opens hfirst l' hafter hl'_opens
    have hl : l ∈ r.languages := by simp [heq]
    have hl' : l' ∈ r.languages := by simp [heq, hafter]
    refine conflict_or_indents_of_first hnames heq ?_ hafter ((hopens l hl).1 hl_opens)
      ((hopens l' hl').1 hl'_opens)
    intro k hk htagged
    have hkr : k ∈ r.languages := by simp [heq, hk]
    exact hfirst k hk ((hopens k hkr).2 htagged)

/-- Two languages that share an alias, and a comment that shows it behind a tab. -/
theorem conflicts_report_shadowing_of_shared : ∃ a, ⟨a, "js", "jsx"⟩ ∈
    (Registry.mk [⟨"js", ["js"], .one "source.js"⟩, ⟨"jsx", ["jsx", "js"], .one "source.jsx"⟩]
      ).conflicts := by
  have hvalid : (Registry.mk [⟨"js", ["js"], .one "source.js"⟩,
      ⟨"jsx", ["jsx", "js"], .one "source.jsx"⟩]).validate = .ok () := by rfl
  have htext : '\n' ∉ "\tjs".toList := by decide
  have hopens : ∀ l ∈ [Language.mk "js" ["js"] (.one "source.js"),
      ⟨"jsx", ["jsx", "js"], .one "source.jsx"⟩],
      l.embedding.opensOn (commentLine "\tjs") = true := by
    intro l hl
    refine (opensOn_of_validate hvalid htext hl).2 ⟨"js", ?_, ['\t'], by simp [Pattern.isGap], rfl⟩
    rcases List.mem_pair.1 hl with rfl | rfl <;> simp
  have hreport := (conflicts_report_shadowing hvalid htext).2 [] _ _ rfl (hopens _ (by simp))
    (by simp) _ (List.mem_singleton_self _) (hopens _ (by simp))
  rcases hreport with hconflict | hindents | hindents
  · exact hconflict
  · exact absurd hindents (Language.not_indents (by simp [Pattern.isGap]))
  · exact absurd hindents (Language.not_indents (by simp [Pattern.isGap]))

/-- Without a conflict a comment can still tag two languages. -/
theorem conflicts_miss_indented : ¬∀ (r : Registry) (text : String), r.validate = .ok () →
    r.conflicts = [] → '\n' ∉ text.toList → ∀ l ∈ r.languages, ∀ l' ∈ r.languages,
      l.embedding.opensOn (commentLine text) = true →
      l'.embedding.opensOn (commentLine text) = true → l = l' := by
  intro h
  have hvalid : (Registry.mk [⟨"indented", [" sql"], .one "source.indented"⟩,
      ⟨"sql", ["sql"], .one "source.sql"⟩]).validate = .ok () := by rfl
  have htext : '\n' ∉ " sql".toList := by decide
  have hindented := (opensOn_of_validate hvalid htext List.mem_cons_self).2
    ⟨" sql", List.mem_cons_self, [], by simp, rfl⟩
  have hsql := (opensOn_of_validate hvalid htext
    (List.mem_cons_of_mem _ List.mem_cons_self)).2
    ⟨"sql", List.mem_cons_self, [' '], by simp [Pattern.isGap], rfl⟩
  have heq := h _ " sql" hvalid rfl htext _ List.mem_cons_self _
    (List.mem_cons_of_mem _ List.mem_cons_self) hindented hsql
  exact absurd (congrArg Language.name heq) (by simp)

end Registry
end InjectionGrammar
