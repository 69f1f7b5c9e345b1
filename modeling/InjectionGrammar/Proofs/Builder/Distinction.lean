import InjectionGrammar.Proofs.Builder.Dispatch
import InjectionGrammar.Proofs.Grammar.Distinction
import InjectionGrammar.Proofs.Pattern.Alternation

/-! Nothing of a registry is lost in the text of its grammar, but whether a single source was
written as a list. -/
namespace InjectionGrammar

theorem Source.toList_eq_iff {s s' : Source} : s.toList = s'.toList ↔
    s = s' ∨ ∃ x, (s = .one x ∧ s' = .many [x]) ∨ (s = .many [x] ∧ s' = .one x) := by
  cases s <;> cases s' <;> simp [toList, eq_comm]

namespace Language
variable {l l' : Language}

/-- Languages that agree in all but the way in which their sources are written down. -/
structure Alike (l l' : Language) : Prop where
  name : l.name = l'.name
  identifiers : l.identifiers = l'.identifiers
  sources : l.source.toList = l'.source.toList

namespace Alike

theorem embedding (h : l.Alike l') : l.embedding = l'.embedding := by
  obtain ⟨hname, hidentifiers, hsources⟩ := h
  have hpattern : l.tagPattern = l'.tagPattern := congrArg Pattern.tagComment hidentifiers
  unfold Language.embedding fence contentScope tagScope
  rw [hname, hpattern, hsources]

theorem repositoryKey (h : l.Alike l') : l.repositoryKey = l'.repositoryKey :=
  repositoryKey_inj.2 h.name

theorem repositoryInclude (h : l.Alike l') : l.repositoryInclude = l'.repositoryInclude :=
  repositoryInclude_inj.2 h.name

theorem rule (h : l.Alike l') : l.rule = l'.rule := by
  have hsource : l.source.isEmpty = l'.source.isEmpty := congrArg (·.all isBlankText) h.sources
  rw [Language.rule, Language.rule, h.name, h.identifiers, hsource, h.embedding]

end Alike

theorem sources_of_fence (h : l.fence = l'.fence) : l.source.toList = l'.source.toList := by
  have hpatterns : l.source.toList.map Rule.reference = l'.source.toList.map Rule.reference :=
    congrArg Rule.patterns h
  have hreference : Function.Injective Rule.reference := by
    intro s s' hs
    exact Option.some.inj (congrArg Rule.target hs)
  exact hreference.list_map hpatterns

/-- The rule of a language shows its name, its aliases and its sources. -/
theorem embedding_inj (h : l.identifiers ≠ []) (h' : l'.identifiers ≠ []) :
    l.embedding = l'.embedding ↔ l.Alike l' := by
  constructor
  · intro heq
    have hopening : some l.tagPattern = some l'.tagPattern := congrArg Rule.opening heq
    have hcontent : some ("meta.embedded.block." ++ l.name) =
        some ("meta.embedded.block." ++ l'.name) := congrArg Rule.contentName heq
    have hpatterns : [l.fence] = [l'.fence] := congrArg Rule.patterns heq
    refine ⟨?_, ?_, ?_⟩
    · exact (String.append_right_inj _).1 (Option.some.inj hcontent)
    · exact (Pattern.tagComment_inj h h').1 (Option.some.inj hopening)
    · exact sources_of_fence (List.singleton_inj.1 hpatterns)
  · exact Alike.embedding

end Language

/-- Lists with the same images are related item by item if items with the same image are. -/
theorem forall₂_of_map_eq {α β : Type} {f : α → β} {R : α → α → Prop} {as bs : List α}
    (h : as.map f = bs.map f) (hR : ∀ a ∈ as, ∀ b ∈ bs, f a = f b → R a b) :
    List.Forall₂ R as bs := by
  induction as generalizing bs with
  | nil =>
    obtain rfl := List.map_eq_nil_iff.1 h.symm
    exact .nil
  | cons a as ih =>
    obtain ⟨b, bs, rfl, hab, hmap⟩ := List.map_eq_cons_iff.1 h.symm
    refine .cons (hR a List.mem_cons_self b List.mem_cons_self hab.symm) (ih hmap.symm ?_)
    intro x hx y hy
    exact hR x (List.mem_cons_of_mem a hx) y (List.mem_cons_of_mem b hy)

namespace Registry
variable {r r' : Registry} {o o' : Options} {g g' : Grammar} {ls ls' : List Language}

theorem fileRules_congr (h : List.Forall₂ Language.Alike ls ls') (m : OrderedMap String Rule) :
    fileRules m ls = fileRules m ls' := by
  induction h generalizing m with
  | nil => rfl
  | @cons l l' ls ls' hl _ ih => simp only [fileRules, hl.rule, hl.repositoryKey, hl.name, ih]

theorem targets_congr (h : List.Forall₂ Language.Alike ls ls') :
    ls.map (·.repositoryInclude) = ls'.map (·.repositoryInclude) := by
  induction h with
  | nil => rfl
  | cons hl _ ih => rw [List.map_cons, List.map_cons, hl.repositoryInclude, ih]

/-- Alike registries have the same grammar. -/
theorem grammar_congr (h : List.Forall₂ Language.Alike r.languages r'.languages)
    (hname : o.scopeName = o'.scopeName)
    (hselector : Selector.ofScopes o.targetScopes = Selector.ofScopes o'.targetScopes) :
    r.grammar o = r'.grammar o' := by
  have htop : r.topLevelPatterns = r'.topLevelPatterns := by
    have hmap := congrArg (List.map Rule.reference) (targets_congr h)
    simp only [List.map_map, Function.comp_def] at hmap
    simp only [topLevelPatterns, hmap]
  simp only [grammar, fileRules_congr h, htop, hname, hselector]

/-- A grammar shows the languages that it was built from. -/
theorem alike_of_grammar (h : r.grammar o = .ok g) (h' : r'.grammar o' = .ok g) :
    List.Forall₂ Language.Alike r.languages r'.languages := by
  have hpatterns : r.topLevelPatterns = r'.topLevelPatterns := by
    obtain ⟨m, -, rfl⟩ := grammar_eq_ok.1 h
    obtain ⟨m', -, heq⟩ := grammar_eq_ok.1 h'
    exact congrArg Grammar.patterns heq
  obtain ⟨outer, houter, htargets⟩ := r.targets_topLevelPatterns
  obtain ⟨outer', houter', htargets'⟩ := r'.targets_topLevelPatterns
  rw [houter, houter', List.singleton_inj] at hpatterns
  rw [hpatterns, htargets'] at htargets
  apply forall₂_of_map_eq htargets.symm
  intro l hl l' hl' hinclude
  have hkey := Language.repositoryKey_inj.2 (Language.repositoryInclude_inj.1 hinclude)
  have hrule := rule?_of_grammar h hl
  rw [hkey, rule?_of_grammar h' hl', Option.some.injEq] at hrule
  exact (Language.embedding_inj (identifiers_of_grammar h hl)
    (identifiers_of_grammar h' hl')).1 hrule.symm

/-- Two grammars have the same text just if their settings have the same effect and their languages
agree one by one in name, aliases and sources. Of the ways to write sources down only a single one
and the list of it are taken for each other. -/
theorem toText_eq_iff_alike (h : r.grammar o = .ok g) (h' : r'.grammar o' = .ok g') :
    (g.toText = g'.toText ↔ o.scopeName = o'.scopeName ∧
      Selector.ofScopes o.targetScopes = Selector.ofScopes o'.targetScopes ∧
      List.Forall₂ Language.Alike r.languages r'.languages) ∧
    ∀ s s' : Source, s.toList = s'.toList ↔
      s = s' ∨ ∃ x, (s = .one x ∧ s' = .many [x]) ∨ (s = .many [x] ∧ s' = .one x) := by
  refine ⟨⟨?_, ?_⟩, fun s s' => Source.toList_eq_iff⟩
  · intro heq
    obtain rfl := Grammar.toText_injective heq
    refine ⟨?_, ?_, alike_of_grammar h h'⟩
    all_goals
      obtain ⟨m, -, rfl⟩ := grammar_eq_ok.1 h
      obtain ⟨m', -, heq⟩ := grammar_eq_ok.1 h'
    · exact congrArg Grammar.scopeName heq
    · exact congrArg Grammar.injectionSelector heq
  · rintro ⟨hname, hselector, halike⟩
    rw [grammar_congr halike hname hselector, h', Except.ok.injEq] at h
    rw [h]

/-- A source that is written in two ways, and two aliases that look like one behind a bar. -/
theorem toText_eq_iff_alike_of_bar : ∃ g g' g'',
    (Registry.mk [⟨"sql", ["a", "b"], .one "source.sql"⟩]).grammar
      ⟨"inline.sql", ["source.yaml"]⟩ = .ok g ∧
    (Registry.mk [⟨"sql", ["a", "b"], .many ["source.sql"]⟩]).grammar
      ⟨"inline.sql", ["source.yaml"]⟩ = .ok g' ∧
    (Registry.mk [⟨"sql", ["a|b"], .one "source.sql"⟩]).grammar
      ⟨"inline.sql", ["source.yaml"]⟩ = .ok g'' ∧
    g.toText = g'.toText ∧ g.toText ≠ g''.toText := by
  have hone : (Registry.mk [⟨"sql", ["a", "b"], .one "source.sql"⟩]).grammar
      ⟨"inline.sql", ["source.yaml"]⟩ = .ok _ := rfl
  have hmany : (Registry.mk [⟨"sql", ["a", "b"], .many ["source.sql"]⟩]).grammar
      ⟨"inline.sql", ["source.yaml"]⟩ = .ok _ := rfl
  have hbar : (Registry.mk [⟨"sql", ["a|b"], .one "source.sql"⟩]).grammar
      ⟨"inline.sql", ["source.yaml"]⟩ = .ok _ := rfl
  refine ⟨_, _, _, hone, hmany, hbar, ?_, ?_⟩
  · exact (toText_eq_iff_alike hone hmany).1.2 ⟨rfl, rfl, .cons ⟨rfl, rfl, rfl⟩ .nil⟩
  · intro heq
    obtain ⟨-, -, halike⟩ := (toText_eq_iff_alike hone hbar).1.1 heq
    cases halike with
    | cons hl _ => simpa using hl.identifiers

end Registry
end InjectionGrammar
