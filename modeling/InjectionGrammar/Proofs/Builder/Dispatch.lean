import InjectionGrammar.Proofs.Builder.Repository
import InjectionGrammar.Proofs.Pattern.TagComment
import Mathlib.Data.List.Find

/-! A tag comment leads to the first language with the alias that it consists of. -/
namespace InjectionGrammar

/-- Whether a text begins with what opens a rule; a pattern that is not read opens none. -/
def Rule.opensOn (r : Rule) (s : List Char) : Bool :=
  match r.opening.bind Pattern.parse with
  | none => false
  | some e => e.begins s

namespace Grammar

/-- The rule of the repository that a target refers to. -/
def follow? (g : Grammar) (target : String) : Option Rule :=
  match target.toList with
  | '#' :: key => g.rule? (String.ofList key)
  | _ => none

/-- The first target of a rule that leads to a rule that opens on a text. -/
def dispatch? (g : Grammar) (outer : Rule) (s : List Char) : Option String :=
  outer.targets.find? fun t => (g.follow? t).any (·.opensOn s)

end Grammar

/-- A comment up to the end of its line. -/
def commentLine (text : String) : List Char :=
  '#' :: (text.toList ++ ['\n'])

/-- The first line break of a text that has none before its end is at its end. -/
theorem append_newline_cancel {x y t : List Char} (hy : '\n' ∉ y)
    (h : x ++ '\n' :: t = y ++ ['\n']) : x = y := by
  rcases List.eq_nil_or_concat t with rfl | ⟨t, c, rfl⟩
  · exact (List.append_inj' h rfl).1
  · have hsplit : (x ++ '\n' :: t) ++ [c] = y ++ ['\n'] := by
      simpa using h
    have hx := (List.append_inj' hsplit rfl).1
    exact absurd (by simp [← hx]) hy

namespace Language
variable {l l' : Language} {text : String}

/-- A comment tags a language if it shows one of the aliases, behind spaces and tabs. -/
def TaggedBy (l : Language) (text : String) : Prop :=
  ∃ a ∈ l.identifiers, ∃ w : List Char, (∀ c ∈ w, Pattern.isGap c = true) ∧
    text.toList = w ++ a.toList

theorem repositoryInclude_inj : l.repositoryInclude = l'.repositoryInclude ↔ l.name = l'.name := by
  rw [← repositoryKey_inj]
  simp [repositoryInclude, ← String.toList_inj]

theorem opensOn_embedding (hl : l.identifiers ≠ []) (ht : '\n' ∉ text.toList) :
    l.embedding.opensOn (commentLine text) = true ↔ l.TaggedBy text := by
  obtain ⟨e, he, hdenotes⟩ := Pattern.denotes_tagComment hl
  have hopens : l.embedding.opensOn (commentLine text) = e.begins (commentLine text) := by
    change (match Pattern.parse (Pattern.tagComment l.identifiers) with
      | none => false
      | some e => e.begins (commentLine text)) = _
    rw [he]
  rw [hopens, Pattern.Expression.begins_iff]
  constructor
  · rintro ⟨u, t, hu, heq⟩
    obtain ⟨a, ha, w, hw, rfl⟩ := (hdenotes u).1 hu
    refine ⟨a, ha, w, hw, ?_⟩
    have htail : text.toList ++ ['\n'] = (w ++ a.toList) ++ '\n' :: t := by
      simpa [commentLine] using heq
    exact (append_newline_cancel ht htail.symm).symm
  · rintro ⟨a, ha, w, hw, heq⟩
    refine ⟨commentLine text, [], (hdenotes _).2 ⟨a, ha, w, hw, ?_⟩, (List.append_nil _).symm⟩
    rw [commentLine, heq, List.append_assoc]

/-- Where no alias begins with a gap, the gap before an alias is told from it. -/
theorem taggedBy_iff_answersTo
    (h : ∀ a ∈ l.identifiers, ∀ c ∈ a.toList.head?, Pattern.isGap c = false) :
    l.TaggedBy text ↔ l.answersTo (String.ofList (text.toList.dropWhile Pattern.isGap)) = true := by
  rw [answersTo, List.contains_iff_mem]
  constructor
  · rintro ⟨a, ha, w, hw, heq⟩
    have hdrop : text.toList.dropWhile Pattern.isGap = a.toList := by
      rw [heq, List.dropWhile_append_of_pos hw]
      cases ha' : a.toList with
      | nil => rfl
      | cons c s =>
        have hc := h a ha c (by simp [ha'])
        rw [List.dropWhile_cons_of_neg (by simp [hc])]
    rwa [hdrop, String.ofList_toList]
  · intro hmem
    refine ⟨_, hmem, text.toList.takeWhile Pattern.isGap, ?_, ?_⟩
    · intro c hc
      exact List.all_eq_true.1 List.all_takeWhile c hc
    · rw [String.toList_ofList, List.takeWhile_append_dropWhile]

end Language

namespace Registry
variable {r : Registry} {o : Options} {g : Grammar} {l : Language} {text : String}

theorem identifiers_of_grammar (h : r.grammar o = .ok g) (hl : l ∈ r.languages) :
    l.identifiers ≠ [] := by
  obtain ⟨m, hm, -⟩ := grammar_eq_ok.1 h
  have hrule := rule_of_fileRules hm hl
  intro hnil
  unfold Language.rule at hrule
  split at hrule <;> try cases hrule
  simp [hnil] at hrule

theorem opensOn_of_grammar (h : r.grammar o = .ok g) (ht : '\n' ∉ text.toList)
    (hl : l ∈ r.languages) :
    (g.follow? l.repositoryInclude).any (·.opensOn (commentLine text)) = true ↔
      l.TaggedBy text := by
  have hfollow : g.follow? l.repositoryInclude = g.rule? l.repositoryKey := by
    rw [Grammar.follow?, Language.repositoryInclude, String.toList_append]
    exact congrArg g.rule? String.ofList_toList
  rw [hfollow, rule?_of_grammar h hl]
  exact Language.opensOn_embedding (identifiers_of_grammar h hl) ht

theorem targets_topLevelPatterns (r : Registry) : ∃ outer, r.topLevelPatterns = [outer] ∧
    outer.targets = r.languages.map (·.repositoryInclude) := by
  refine ⟨_, rfl, ?_⟩
  change (r.languages.map fun l => Rule.reference l.repositoryInclude).filterMap (·.target) = _
  rw [List.filterMap_map, ← List.filterMap_eq_map]
  rfl

/-- The search through the targets is one through the languages. -/
theorem dispatch?_of_grammar (h : r.grammar o = .ok g) (s : List Char) :
    ∃ outer, g.patterns = [outer] ∧
      g.dispatch? outer s = (r.languages.find? fun l =>
        (g.follow? l.repositoryInclude).any (·.opensOn s)).map (·.repositoryInclude) := by
  obtain ⟨m, -, rfl⟩ := grammar_eq_ok.1 h
  obtain ⟨outer, hpatterns, htargets⟩ := r.targets_topLevelPatterns
  refine ⟨outer, hpatterns, ?_⟩
  rw [Grammar.dispatch?, htargets, List.find?_map]
  rfl

variable {ls before after : List Language} {p : Language → Bool}

/-- Languages of different names are told by their targets. -/
theorem find?_repositoryInclude (hnames : (ls.map (·.name)).Nodup) (hl : l ∈ ls) :
    (ls.find? p).map (·.repositoryInclude) = some l.repositoryInclude ↔ ls.find? p = some l := by
  constructor
  · intro h
    obtain ⟨l', hl', hsame⟩ := Option.map_eq_some_iff.1 h
    have hname := Language.repositoryInclude_inj.1 hsame
    have heq := List.inj_on_of_nodup_map hnames (List.mem_of_find?_eq_some hl') hl hname
    rwa [heq] at hl'
  · intro h
    rw [h]
    rfl

/-- A search ends at the first language that is looked for. -/
theorem find?_append_cons (hl : l ∉ before) : (before ++ l :: after).find? p = some l ↔
    p l = true ∧ ∀ l' ∈ before, ¬p l' = true := by
  constructor
  · intro h
    refine ⟨List.find?_some h, ?_⟩
    cases hb : before.find? p with
    | none => exact List.find?_eq_none.1 hb
    | some l' =>
      rw [List.find?_append, hb] at h
      obtain rfl := Option.some.inj h
      exact absurd (List.mem_of_find?_eq_some hb) hl
  · rintro ⟨hp, hnone⟩
    rw [List.find?_append, List.find?_eq_none.2 hnone, Option.none_or, List.find?_cons_of_pos hp]

/-- Of the languages that a comment tags the first one is reached, and none is where it tags none.
Where no alias begins with a gap this is the language that the alias resolves to. -/
theorem dispatch_reaches_first (h : r.grammar o = .ok g) (ht : '\n' ∉ text.toList) :
    ∃ outer, g.patterns = [outer] ∧
      (∀ before l after, r.languages = before ++ l :: after →
        (g.dispatch? outer (commentLine text) = some l.repositoryInclude ↔
          l.TaggedBy text ∧ ∀ l' ∈ before, ¬l'.TaggedBy text)) ∧
      (g.dispatch? outer (commentLine text) = none ↔ ∀ l ∈ r.languages, ¬l.TaggedBy text) ∧
      ((∀ l ∈ r.languages, ∀ a ∈ l.identifiers, ∀ c ∈ a.toList.head?, Pattern.isGap c = false) →
        g.dispatch? outer (commentLine text) =
          (r.resolve? (String.ofList (text.toList.dropWhile Pattern.isGap))).map
            (·.repositoryInclude)) := by
  obtain ⟨outer, hpatterns, hdispatch⟩ := dispatch?_of_grammar h (commentLine text)
  have hopens : ∀ l ∈ r.languages,
      (g.follow? l.repositoryInclude).any (·.opensOn (commentLine text)) = true ↔
        l.TaggedBy text := fun l hl => opensOn_of_grammar h ht hl
  refine ⟨outer, hpatterns, ?_, ?_, ?_⟩
  · intro before l after heq
    have hnames := names_nodup_of_grammar h
    have hl : l ∈ r.languages := by simp [heq]
    have hnew : l ∉ before := by
      have hnodup := hnames.of_map
      rw [heq] at hnodup
      intro hmem
      exact (List.nodup_append.1 hnodup).2.2 l hmem l List.mem_cons_self rfl
    rw [hdispatch, find?_repositoryInclude hnames hl, heq, find?_append_cons hnew, hopens l hl]
    refine and_congr_right fun _ => forall₂_congr fun l' hl' => not_congr (hopens l' ?_)
    rw [heq]
    exact List.mem_append_left _ hl'
  · rw [hdispatch, Option.map_eq_none_iff, List.find?_eq_none]
    exact forall₂_congr fun l hl => not_congr (hopens l hl)
  · intro hgap
    rw [hdispatch, resolve?]
    congr 1
    apply List.find?_congr
    intro l hl
    rw [Bool.eq_iff_iff, hopens l hl]
    exact Language.taggedBy_iff_answersTo (hgap l hl)

/-- An alias that two languages claim, and one with characters that are escaped. -/
theorem dispatch_reaches_first_of_shared : ∃ g outer,
    (Registry.mk [⟨"sql", ["sql"], .one "source.sql"⟩, ⟨"c", ["c++", "sql"], .one "source.c"⟩]
      ).grammar ⟨"inline.test", ["source.yaml"]⟩ = .ok g ∧ g.patterns = [outer] ∧
    g.dispatch? outer (commentLine " \tsql") = some "#commentTaggedString-sql" ∧
    g.dispatch? outer (commentLine "c++") = some "#commentTaggedString-c" := by
  have hbuilt : (Registry.mk [⟨"sql", ["sql"], .one "source.sql"⟩,
      ⟨"c", ["c++", "sql"], .one "source.c"⟩]).grammar ⟨"inline.test", ["source.yaml"]⟩ =
        .ok _ := rfl
  have hsql : '\n' ∉ " \tsql".toList := by decide
  have hc : '\n' ∉ "c++".toList := by decide
  obtain ⟨outer, hpatterns, -, -, htagged⟩ := dispatch_reaches_first hbuilt hsql
  obtain ⟨outer', hpatterns', -, -, htagged'⟩ := dispatch_reaches_first hbuilt hc
  obtain rfl : outer' = outer := List.singleton_inj.1 (hpatterns'.symm.trans hpatterns)
  have hgap : ∀ l ∈ [Language.mk "sql" ["sql"] (.one "source.sql"),
      ⟨"c", ["c++", "sql"], .one "source.c"⟩], ∀ a ∈ l.identifiers, ∀ c ∈ a.toList.head?,
        Pattern.isGap c = false := by
    simp [Pattern.isGap]
  exact ⟨_, outer', hbuilt, hpatterns', (htagged hgap).trans rfl, (htagged' hgap).trans rfl⟩

end Registry
end InjectionGrammar
