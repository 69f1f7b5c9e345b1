import InjectionGrammar.Json.Encoding
import InjectionGrammar.Proofs.Grammar.Drafting
import InjectionGrammar.Proofs.Grammar.Reading
import InjectionGrammar.Proofs.Text.Order

/-! Grammars and rules are written in one order, by the numbers of groups and by the bytes of keys,
whatever the order in which their parts were set. -/
namespace InjectionGrammar

namespace Json

/-- The keys of an object, as they are written. -/
def keys : Json → List String
  | .object ms => ms.map (·.1)
  | _ => []

/-- The values directly inside of an array or an object. -/
def children : Json → List Json
  | .string _ => []
  | .array vs => vs
  | .object ms => ms.map (·.2)

/-- The value of a member. -/
def member? (v : Json) (key : String) : Option Json :=
  match v with
  | .object ms => (ms.find? fun m => m.1 = key).map (·.2)
  | _ => none

/-- The rules directly inside of a rule that is written. -/
def innerRules (v : Json) : List Json :=
  (v.member? "patterns").toList.flatMap children

/-- A rule of a grammar that is written, listed or filed, or one inside it at any depth. -/
def IsRuleOf (v g : Json) : Prop :=
  ∃ top ∈ g.innerRules ++ (g.member? "repository").toList.flatMap children, Within innerRules v top

/-- The captures of a rule come in the order of their numbers. -/
def CapturesAscend (v : Json) : Prop :=
  ∀ cs, v.member? "beginCaptures" = some cs →
    ∃ ns : List Nat, cs.keys = ns.map numeral ∧ ns.Pairwise (· < ·)

end Json

open Json

theorem find?_optionalMember {key key' : String} (h : key ≠ key') (s : Option String) :
    (optionalMember key s).find? (fun m => m.1 = key') = none := by
  cases s with
  | none => rfl
  | some s => simp [optionalMember, h]

namespace Rule

/-- What of a rule is not a text is in the captures or in the patterns. -/
theorem member?_toJson (r : Rule) {key : String}
    (h : key ∉ ["include", "name", "contentName", "begin", "end"]) :
    r.toJson.member? key =
      (((if r.captures.isEmpty then [] else [("beginCaptures", r.captures.toJson)]).find?
        fun m => m.1 = key).or
          ((patternsMember r.patterns).find? fun m => m.1 = key)).map (·.2) := by
  simp only [List.mem_cons, List.not_mem_nil, or_false, not_or] at h
  obtain ⟨hinclude, hname, hcontent, hbegin, hend⟩ := h
  rcases r with ⟨target, name, contentName, opening, captures, closing, patterns⟩
  rw [toJson]
  unfold Json.member?
  simp only [List.find?_append, find?_optionalMember (Ne.symm hinclude),
    find?_optionalMember (Ne.symm hname), find?_optionalMember (Ne.symm hcontent),
    find?_optionalMember (Ne.symm hbegin), find?_optionalMember (Ne.symm hend), Option.none_or,
    Option.or_none]

theorem member?_beginCaptures (r : Rule) : r.toJson.member? "beginCaptures" =
    if r.captures.isEmpty then none else some r.captures.toJson := by
  have hpatterns : (patternsMember r.patterns).find? (fun m => m.1 = "beginCaptures") = none := by
    cases r.patterns <;> rfl
  rw [member?_toJson r (by decide), hpatterns, Option.or_none]
  split <;> rfl

theorem innerRules_toJson (r : Rule) : r.toJson.innerRules = r.patterns.map toJson := by
  rw [innerRules, member?_toJson r (by decide)]
  have hcaptures : (if r.captures.isEmpty then [] else [("beginCaptures", r.captures.toJson)]).find?
      (fun m => m.1 = "patterns") = none := by
    split <;> rfl
  rw [hcaptures, Option.none_or]
  cases hrs : r.patterns with
  | nil => rfl
  | cons i is =>
    rw [patternsMember, listToJson_eq_map]
    simp [children]

theorem capturesAscend_toJson (r : Rule) : r.toJson.CapturesAscend := by
  intro cs hcs
  rw [member?_beginCaptures] at hcs
  split at hcs
  · cases hcs
  · obtain rfl := Option.some.inj hcs
    refine ⟨r.captures.entries.map fun e => e.1.toNat, ?_, ?_⟩
    · rw [Captures.toJson, keys, List.map_map, List.map_map]
      rfl
    · rw [List.pairwise_map]
      exact r.captures.sorted.imp fun h => UInt32.lt_iff_toNat_lt.1 (of_decide_eq_true h)

/-- In a rule that is written the captures ascend at every depth. -/
theorem capturesAscend_within {r : Rule} {v : Json} (h : Within innerRules v r.toJson) :
    v.CapturesAscend := by
  obtain ⟨r', -, rfl⟩ := (within_map innerRules_toJson).1 h
  exact r'.capturesAscend_toJson

end Rule

namespace Grammar
variable (g : Grammar)

theorem member?_repository : g.toJson.member? "repository" =
    some (.object (g.repository.entries.map fun e => (e.1, e.2.toJson))) := rfl

theorem innerRules_toJson : g.toJson.innerRules = g.patterns.map Rule.toJson := by
  rw [innerRules, toJson]
  change List.flatMap children [.array (Rule.listToJson g.patterns)] = _
  rw [Rule.listToJson_eq_map]
  simp [children]

theorem capturesAscend_of_isRuleOf {v : Json} (h : v.IsRuleOf g.toJson) : v.CapturesAscend := by
  obtain ⟨top, htop, hv⟩ := h
  rw [innerRules_toJson, member?_repository, List.mem_append] at htop
  have hrule : ∃ r : Rule, top = r.toJson := by
    rcases htop with htop | htop
    · obtain ⟨r, -, rfl⟩ := List.mem_map.1 htop
      exact ⟨r, rfl⟩
    · simp only [Option.toList_some, List.flatMap_cons, List.flatMap_nil, List.append_nil, children,
        List.map_map, List.mem_map] at htop
      obtain ⟨e, -, rfl⟩ := htop
      exact ⟨e.2, rfl⟩
  obtain ⟨r, rfl⟩ := hrule
  exact Rule.capturesAscend_within hv

/-- The keys of the repository ascend by their bytes. -/
theorem repository_ascends : ∃ repository, g.toJson.member? "repository" = some repository ∧
    repository.keys.Pairwise fun a b => utf8Bytes a < utf8Bytes b := by
  refine ⟨_, g.member?_repository, ?_⟩
  rw [keys, List.map_map, List.pairwise_map]
  exact g.repository.sorted.imp fun h => utf8Bytes_lt (of_decide_eq_true h)

end Grammar

/-- However rules and grammars are made, the captures are written in the order of their numbers, at
every depth, and the repository in the order of the bytes of its keys. What comes from calls, from a
text or from a registry comes from the assignments that these make: of those to one group the last
one stays. Two calls in a row that set different things can be made in either order. -/
theorem order_is_canonical :
    (∀ (r : Rule) (v : Json), Within innerRules v r.toJson → v.CapturesAscend) ∧
    (∀ g : Grammar, (∀ v : Json, v.IsRuleOf g.toJson → v.CapturesAscend) ∧
      ∃ repository, g.toJson.member? "repository" = some repository ∧
        repository.keys.Pairwise fun a b => utf8Bytes a < utf8Bytes b) ∧
    (∀ target, (Rule.reference target).ComesFrom (.reference target)) ∧
    (∀ opening closing, (Rule.span opening closing).ComesFrom (.span opening closing)) ∧
    (∀ (d : Rule.Draft) (cs : List (Change Rule.Draft)),
      ((cs.map (·.map Rule.Draft.settle)).foldl Rule.change d.settle).ComesFrom
        (cs.foldl Rule.Draft.change d) ∧
      (cs.foldl Rule.Draft.change d).captures = d.captures ++ cs.filterMap (·.assignment?)) ∧
    (∀ text r, Rule.ofText text = .ok r → ∃ d, Rule.Draft.ofText text = .ok d ∧ r.ComesFrom d) ∧
    (∀ text g, Grammar.ofText text = .ok g →
      ∃ d, Grammar.Draft.ofText text = .ok d ∧ g.ComesFrom d) ∧
    (∀ (r : Registry) (o : Options) (g : Grammar), r.grammar o = .ok g → g.ComesFrom (r.draft o)) ∧
    ∀ (r : Rule) (before after : List (Change Rule)) (c c' : Change Rule), c.slot ≠ c'.slot →
      let r₁ := (before ++ c :: c' :: after).foldl Rule.change r
      let r₂ := (before ++ c' :: c :: after).foldl Rule.change r
      r₁ = r₂ ∧ r₁.toText = r₂.toText := by
  refine ⟨fun _ _ => Rule.capturesAscend_within, fun g =>
    ⟨fun _ => g.capturesAscend_of_isRuleOf, g.repository_ascends⟩, ?_, ?_, ?_, ?_, ?_, ?_, ?_⟩
  · intro target
    rw [← Rule.Draft.settle_reference]
    exact Rule.comesFrom_settle _
  · intro opening closing
    rw [← Rule.Draft.settle_span]
    exact Rule.comesFrom_settle _
  · intro d cs
    rw [← Rule.Draft.settle_changes]
    exact ⟨Rule.comesFrom_settle _, Rule.Draft.captures_changes d cs⟩
  · intro text r h
    rw [Rule.ofText_eq] at h
    obtain ⟨d, hd, rfl⟩ := Except.map_eq_ok.1 h
    exact ⟨d, hd, Rule.comesFrom_settle d⟩
  · intro text g h
    rw [Grammar.ofText_eq] at h
    obtain ⟨d, hd, rfl⟩ := Except.map_eq_ok.1 h
    exact ⟨d, hd, Grammar.comesFrom_settle d⟩
  · intro r o g h
    rw [Registry.eq_settle_of_grammar h]
    exact Grammar.comesFrom_settle _
  · intro r before after c c' h r₁ r₂
    have hrules : r₁ = r₂ := Rule.changes_swap before after h
    exact ⟨hrules, congrArg Rule.toText hrules⟩

/-- A rule that assigns to the groups 10, 2 and 10 again. -/
def scatteredText : String :=
  "\x7b\"beginCaptures\": \x7b\"10\": [\"a\"], \"2\": [\"b\"], \"10\": [\"c\"]\x7d\x7d"

/-- The scattered text, the grammar of one language, and two captures the other way round. -/
theorem order_is_canonical_of_scattered :
    let registry : Registry := ⟨[⟨"sql", ["sql"], .one "source.sql"⟩]⟩
    let options : Options := ⟨"inline.sql", ["source.yaml"]⟩
    (∃ r d, Rule.ofText scatteredText = .ok r ∧ r.ComesFrom d ∧
      d.captures = [(10, "a"), (2, "b"), (10, "c")] ∧ r.toJson.CapturesAscend ∧ r.toText =
        "\x7b\"beginCaptures\":\x7b\"2\":\x7b\"name\":\"b\"\x7d,\"10\":\x7b\"name\":\"c\"\x7d\x7d\x7d") ∧
    (∃ g, registry.grammar options = .ok g ∧ g.ComesFrom (registry.draft options)) ∧
    ((Rule.span "a" "b").withCapture 10 "ten").withCapture 2 "two" =
      ((Rule.span "a" "b").withCapture 2 "two").withCapture 10 "ten" := by
  intro registry options
  obtain ⟨hascend, -, -, -, -, htext, -, hbuilt, hswap⟩ := order_is_canonical
  refine ⟨?_, ⟨_, rfl, hbuilt registry options _ rfl⟩, ?_⟩
  · have hread : (Rule.ofText scatteredText).toOption.map Rule.toText = some
        "\x7b\"beginCaptures\":\x7b\"2\":\x7b\"name\":\"b\"\x7d,\"10\":\x7b\"name\":\"c\"\x7d\x7d\x7d" := by
      decide +kernel
    have hdraft : (Rule.Draft.ofText scatteredText).toOption.map (·.captures) =
        some [(10, "a"), (2, "b"), (10, "c")] := by
      decide +kernel
    cases h : Rule.ofText scatteredText with
    | error f => simp [h, Except.toOption] at hread
    | ok r =>
      obtain ⟨d, hd, hfrom⟩ := htext scatteredText r h
      rw [h] at hread
      rw [hd] at hdraft
      exact ⟨r, d, rfl, hfrom, Option.some.inj hdraft, hascend r _ .here, Option.some.inj hread⟩
  · exact (hswap (.span "a" "b") [] [] (.capture 10 "ten") (.capture 2 "two") (by decide)).1

end InjectionGrammar
