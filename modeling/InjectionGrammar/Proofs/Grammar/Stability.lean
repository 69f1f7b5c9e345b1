import InjectionGrammar.Proofs.Grammar.RoundTrip
import InjectionGrammar.Proofs.Json.Yield

/-! Whatever is read as a grammar is read back from the text that it is written as: what can be read
does not nest too deep for being read again. -/
namespace InjectionGrammar
open Json
variable {n : Nat} {captures : Reader Captures} {patterns : Reader (List Rule)}

/-- Captures that are not empty are read through two levels. -/
theorem readCaptures_ensures (n : Nat) :
    (readCaptures n).Ensures fun cs => cs.isEmpty = false → 2 ≤ n := by
  have hscope : (captureLayout.read (n - 1)).Ensures fun _ => 0 < n - 1 := by
    have hrecord : (captureLayout.read (n - 1)).Ensures fun _ => 0 < n - 1 ∧ True :=
      Layout.read_ensures (fun _ => trivial) fun _ _ _ _ _ _ _ _ _ => trivial
    exact hrecord.mono fun _ h => h.1
  refine (readPairs_ensures fun _ => hscope).map ?_
  rintro es ⟨-, hlevels⟩ hempty
  cases es with
  | nil => cases hempty
  | cons e es =>
    have hlevel := hlevels e List.mem_cons_self
    omega

/-- The captures and the inner rules of a rule fit into a number of levels below it. -/
def Rule.Within (n : Nat) (r : Rule) : Prop :=
  (r.captures.isEmpty = false → 2 ≤ n) ∧ ∀ r' ∈ r.patterns, r'.toJson.depth < n

/-- Reading a text into a field leaves what is below the rule as it is. -/
theorem readOptional_keeps {set : Option String → Rule → Rule}
    (hset : ∀ s r, (set s r).captures = r.captures ∧ (set s r).patterns = r.patterns) :
    (readOptional.map set).Ensures fun change =>
      ∀ r, Rule.Within n r → Rule.Within n (change r) := by
  refine (ensures_true readOptional).map ?_
  intro s _ r hr
  rw [Rule.Within, (hset s r).1, (hset s r).2]
  exact hr

theorem ruleLayout_keeps (hcaptures : captures.Ensures fun cs => cs.isEmpty = false → 2 ≤ n)
    (hpatterns : patterns.Ensures fun rs => ∀ r ∈ rs, r.toJson.depth < n) :
    (ruleLayout captures patterns).Keeps (Rule.Within n) := by
  intro f hf
  simp only [ruleLayout, List.mem_cons, List.not_mem_nil, or_false] at hf
  rcases hf with rfl | rfl | rfl | rfl | rfl | rfl | rfl <;> dsimp only
  · exact readOptional_keeps fun _ _ => ⟨rfl, rfl⟩
  · exact readOptional_keeps fun _ _ => ⟨rfl, rfl⟩
  · exact readOptional_keeps fun _ _ => ⟨rfl, rfl⟩
  · exact readOptional_keeps fun _ _ => ⟨rfl, rfl⟩
  · exact hcaptures.map fun cs hcs r hr => ⟨hcs, hr.2⟩
  · exact readOptional_keeps fun _ _ => ⟨rfl, rfl⟩
  · exact hpatterns.map fun rs hrs r hr => ⟨hr.1, hrs⟩

/-- A rule takes a level itself; what is inside of it is read through the others. -/
theorem ruleLayout_ensures
    (hcaptures : 0 < n → captures.Ensures fun cs => cs.isEmpty = false → 2 ≤ n - 1)
    (hpatterns : 0 < n → patterns.Ensures fun rs => ∀ r ∈ rs, r.toJson.depth < n - 1) :
    ((ruleLayout captures patterns).read n).Ensures fun r => r.toJson.depth ≤ n := by
  have hread : ((ruleLayout captures patterns).read n).Ensures
      fun r => 0 < n ∧ Rule.Within (n - 1) r := by
    refine Layout.read_ensures (fun _ => ⟨nofun, fun _ => nofun⟩) ?_
    intro hn
    exact ruleLayout_keeps (hcaptures hn) (hpatterns hn)
  refine hread.mono ?_
  rintro r ⟨hn, hwithin⟩
  have hdepth := Rule.depth_toJson_le_succ hwithin.1 hwithin.2
  omega

/-- A rule that is read through a number of levels does not nest deeper than these. -/
theorem readRule_ensures : ∀ n, (readRule n).Ensures fun r => r.toJson.depth ≤ n := by
  intro n
  induction n using readRule.induct with
  | case1 => exact ruleLayout_ensures (absurd · (Nat.lt_irrefl 0)) (absurd · (Nat.lt_irrefl 0))
  | case2 =>
    refine ruleLayout_ensures (fun _ => readCaptures_ensures 0) fun _ => ?_
    -- no level is left for a list, so that there is nothing to say of its items
    have hlist : (readList 0 (stopAt .tooDeep)).Ensures
        fun rs : List Rule => 0 < 0 ∧ ∀ r ∈ rs, r.toJson.depth < 0 :=
      readList_ensures (absurd · (Nat.lt_irrefl 0))
    exact hlist.mono fun _ h => h.2
  | case3 n ih =>
    refine ruleLayout_ensures (fun _ => readCaptures_ensures (n + 1)) fun _ => ?_
    have hlist := readList_ensures (n := n + 1) fun _ => ih
    exact hlist.mono fun _ h r hr => Nat.lt_succ_of_le (h.2 r hr)

namespace Grammar
variable {g : Grammar} {text : String}

theorem grammarLayout_ensures :
    (grammarLayout.read depthLimit).Ensures fun g => g.toJson.depth ≤ 127 := by
  have hrules : (readList (depthLimit - 1) (readRule (depthLimit - 2))).Ensures
      fun rs => ∀ r ∈ rs, r.toJson.depth ≤ 125 :=
    (readList_ensures fun _ => readRule_ensures 125).mono fun _ h => h.2
  have hfiled : (readPairs (depthLimit - 1) readQuoted (readRule (depthLimit - 2))).Ensures
      fun es => ∀ e ∈ es, e.2.toJson.depth ≤ 125 :=
    (readPairs_ensures fun _ => readRule_ensures 125).mono fun _ h => h.2
  have hkeeps : grammarLayout.Keeps fun g => (∀ r ∈ g.patterns, r.toJson.depth ≤ 125) ∧
      ∀ e ∈ g.repository.entries, e.2.toJson.depth ≤ 125 := by
    intro f hf
    simp only [grammarLayout, List.mem_cons, List.not_mem_nil, or_false] at hf
    rcases hf with rfl | rfl | rfl | rfl | rfl <;> dsimp only
    · exact (ensures_true _).map fun _ _ _ hg => hg
    · exact (ensures_true _).map fun _ _ _ hg => hg
    · exact hrules.map fun rs hrs g hg => ⟨hrs, hg.2⟩
    · exact (ensures_true _).map fun _ _ _ hg => hg
    · exact hfiled.map fun es hes g hg =>
        ⟨hg.1, fun e he => hes e (OrderedMap.mem_of_mem_ofList he)⟩
  refine (Layout.read_ensures (fun _ => ⟨fun _ => nofun, fun _ => nofun⟩) fun _ => hkeeps).mono ?_
  rintro g ⟨-, hpatterns, hrepository⟩
  exact depth_toJson_le hpatterns hrepository

/-- The text as which a grammar is written that is read from another text. -/
def normalize (text : String) : Except Failure String :=
  (ofText text).map toText

/-- What is read from any text at all is read again from the text that it is written as. So a text
that has been normalized stays as it is. -/
theorem reading_is_stable (h : ofText text = .ok g) :
    ofText g.toText = .ok g ∧ normalize text = .ok g.toText ∧
      normalize g.toText = .ok g.toText := by
  have hdepth : g.toJson.depth ≤ 127 := grammarLayout_ensures.run h
  have hread : ofText g.toText = .ok g := (run_toFile (decodes_grammarLayout g)).ok hdepth
  rw [normalize, normalize, h, hread]
  exact ⟨rfl, rfl, rfl⟩

/-- A text with records as lists, an escape, a member without a meaning, a null and repeated keys. -/
def looseText : String :=
  "[[\"y\\u0061ml\"], \"L:x\", [\x7b\"line\": [1], \"beginCaptures\": \x7b\"1\": [\"a\"], " ++
  "\"1\": [\"b\"]\x7d\x7d, [null, \"n\"]], \"s\", \x7b\"k\": \x7b\"end\": null\x7d, \"k\": []\x7d]"

theorem reading_is_stable_of_loose : ∃ g, ofText looseText = .ok g ∧ g.fileTypes = ["yaml"] ∧
    g.patterns.map (·.capture? 1) = [some "b", none] ∧ g.repository.keys = ["k"] ∧
    ofText g.toText = .ok g ∧ normalize looseText = .ok g.toText ∧
    normalize g.toText = .ok g.toText := by
  have hread : (ofText looseText).toOption.map
      (fun g => (g.fileTypes, g.patterns.map (·.capture? 1), g.repository.keys)) =
      some (["yaml"], [some "b", none], ["k"]) := by decide +kernel
  cases h : ofText looseText with
  | error f => simp [h, Except.toOption] at hread
  | ok g =>
    simp only [h, Except.toOption, Option.map_some, Option.some.injEq, Prod.mk.injEq] at hread
    obtain ⟨htypes, hcaptures, hkeys⟩ := hread
    exact ⟨g, rfl, htypes, hcaptures, hkeys, reading_is_stable h⟩

end Grammar
end InjectionGrammar
