import InjectionGrammar.Proofs.Grammar.Group
import InjectionGrammar.Proofs.Json.Along
import InjectionGrammar.Proofs.Json.Blind.Records

/-! Grammars and rules are read from their members in any order. -/
namespace InjectionGrammar
open Json
variable {captures : Reader Captures} {patterns : Reader (List Rule)}

/-! Records. -/

theorem independent_of_sets {σ α β : Type} {name name' : String} {read : Reader α}
    {read' : Reader β} {set : α → σ → σ} {set' : β → σ → σ}
    (h : ∀ a b record, set a (set' b record) = set' b (set a record)) :
    Field.Independent ⟨name, read.map set⟩ ⟨name', read'.map set'⟩ := by
  rintro c c' ⟨s, rest, hs⟩ ⟨s', rest', hs'⟩ record
  obtain ⟨p, -, hp⟩ := Except.map_eq_ok.1 hs
  obtain ⟨p', -, hp'⟩ := Except.map_eq_ok.1 hs'
  obtain ⟨rfl, -⟩ := Prod.mk.inj hp
  obtain ⟨rfl, -⟩ := Prod.mk.inj hp'
  exact h p.1 p'.1 record

theorem blind_captureLayout (n : Nat) : Blind (captureLayout.read n) := by
  apply Layout.blind_read
  · intro f hf
    obtain rfl := List.mem_singleton.1 hf
    dsimp only
    exact blind_readString.map _
  · exact List.pairwise_singleton _ _

theorem blind_readCaptures (n : Nat) : Blind (readCaptures n) :=
  blind_readPairs readsNames_readGroup (blind_captureLayout _)

theorem blind_ruleLayout (hcaptures : Blind captures) (hpatterns : Blind patterns) (n : Nat) :
    Blind ((ruleLayout captures patterns).read n) := by
  apply Layout.blind_read
  · intro f hf
    simp only [ruleLayout, List.mem_cons, List.not_mem_nil, or_false] at hf
    rcases hf with rfl | rfl | rfl | rfl | rfl | rfl | rfl <;> dsimp only
    · exact blind_readOptional.map _
    · exact blind_readOptional.map _
    · exact blind_readOptional.map _
    · exact blind_readOptional.map _
    · exact hcaptures.map _
    · exact blind_readOptional.map _
    · exact hpatterns.map _
  · simp only [Layout.Commutes, ruleLayout, List.pairwise_cons, List.mem_cons, List.not_mem_nil,
      or_false, forall_eq_or_imp, forall_eq, List.Pairwise.nil, and_true, false_imp_iff,
      implies_true]
    refine ⟨⟨?_, ?_, ?_, ?_, ?_, ?_⟩, ⟨?_, ?_, ?_, ?_, ?_⟩, ⟨?_, ?_, ?_, ?_⟩, ⟨?_, ?_, ?_⟩,
      ⟨?_, ?_⟩, ?_⟩
    all_goals exact independent_of_sets fun _ _ _ => rfl

/-- No rule is read beyond the depth limit, so that a list of rules is empty there. -/
theorem blind_readList_tooDeep (n : Nat) :
    Blind (readList n (stopAt (α := Rule × List Char) .tooDeep)) := by
  apply blind_readList
  intro v v' _ _
  exact ⟨none, reads_none fun _ _ _ _ => nofun, reads_none fun _ _ _ _ => nofun⟩

theorem blind_readRule (n : Nat) : Blind (readRule n) := by
  induction n using readRule.induct with
  | case1 => exact blind_ruleLayout (blind_readCaptures 0) (blind_readList_tooDeep 0) 0
  | case2 => exact blind_ruleLayout (blind_readCaptures 0) (blind_readList_tooDeep 0) 1
  | case3 n ih => exact blind_ruleLayout (blind_readCaptures (n + 1)) (blind_readList ih) (n + 2)

theorem blind_grammarLayout : Blind (grammarLayout.read depthLimit) := by
  have hrule := blind_readRule (depthLimit - 2)
  apply Layout.blind_read
  · intro f hf
    simp only [grammarLayout, List.mem_cons, List.not_mem_nil, or_false] at hf
    rcases hf with rfl | rfl | rfl | rfl | rfl <;> dsimp only
    · exact (blind_readList blind_readString).map _
    · exact blind_readString.map _
    · exact (blind_readList hrule).map _
    · exact blind_readString.map _
    · have hmap := (blind_readPairs (n := depthLimit - 1) readsNames_readQuoted hrule).map
        fun (es : OrderedMap String Rule) (g : Grammar) => { g with repository := es }
      rwa [Reader.map_map] at hmap
  · simp only [Layout.Commutes, grammarLayout, List.pairwise_cons, List.mem_cons, List.not_mem_nil,
      or_false, forall_eq_or_imp, forall_eq, List.Pairwise.nil, and_true, false_imp_iff,
      implies_true]
    refine ⟨⟨?_, ?_, ?_, ?_⟩, ⟨?_, ?_, ?_⟩, ⟨?_, ?_⟩, ?_⟩
    all_goals exact independent_of_sets fun _ _ _ => rfl

/-! Texts. -/

/-- Two texts that differ in the order of members, at any depth, and in blanks between tokens give
the same grammar and the same rule, or both give none. -/
theorem reading_ignores_member_order {v v' : Tree} {text text' : String} (htext : IsText v text)
    (htext' : IsText v' text') (hshuffled : Shuffled v v') (hdistinct : v.Distinct) :
    (Grammar.ofText text).toOption = (Grammar.ofText text').toOption ∧
      (Rule.ofText text).toOption = (Rule.ofText text').toOption :=
  ⟨blind_grammarLayout.toOption_run htext htext' hshuffled hdistinct,
    (blind_readRule depthLimit).toOption_run htext htext' hshuffled hdistinct⟩

theorem reading_ignores_member_order_of_nested :
    ∃ v v', ∃ text text' : String,
      text = "\x7b\"x\":\x7b\"p\":null,\"q\":true\x7d,\"name\":\"a\"\x7d" ∧
      text' = "\x7b\"name\":\"a\",\"x\":\x7b\"q\":true,\"p\":null\x7d\x7d" ∧
      IsText v text ∧ IsText v' text' ∧ Shuffled v v' ∧ v.Distinct ∧
      (Grammar.ofText text).toOption = (Grammar.ofText text').toOption ∧
      (Rule.ofText text).toOption = (Rule.ofText text').toOption := by
  have hx : IsBody ['x'] := isBody_of_plain (by simp)
  have hp : IsBody ['p'] := isBody_of_plain (by simp)
  have hq : IsBody ['q'] := isBody_of_plain (by simp)
  have ha : IsBody ['a'] := isBody_of_plain (by simp)
  have hname : IsBody ['n', 'a', 'm', 'e'] := isBody_of_plain (by simp)
  let null : Tree := .word ['n', 'u', 'l', 'l']
  let yes : Tree := .word ['t', 'r', 'u', 'e']
  have hnull := spells_word (w := ['n', 'u', 'l', 'l']) (.inl (.inl rfl))
  have hyes := spells_word (w := ['t', 'r', 'u', 'e']) (.inl (.inr (.inl rfl)))
  let v : Tree := .object [(['x'], .object [(['p'], null), (['q'], yes)]),
    (['n', 'a', 'm', 'e'], .string ['a'])]
  let v' : Tree := .object [(['n', 'a', 'm', 'e'], .string ['a']),
    (['x'], .object [(['q'], yes), (['p'], null)])]
  have htext : IsText v "\x7b\"x\":\x7b\"p\":null,\"q\":true\x7d,\"name\":\"a\"\x7d" := by
    refine ⟨[], ?_, nofun⟩
    rw [show String.toList _ = '\x7b' :: '"' :: 'x' :: '"' :: ':' :: '\x7b' :: '"' :: 'p' :: '"' ::
      ':' :: (['n', 'u', 'l', 'l'] ++ ',' :: '"' :: 'q' :: '"' :: ':' :: (['t', 'r', 'u', 'e'] ++
      '\x7d' :: ',' :: '"' :: 'n' :: 'a' :: 'm' :: 'e' :: '"' :: ':' :: '"' :: 'a' :: '"' ::
      ['\x7d'])) by decide +kernel]
    exact ⟨_, token_cons _ _, hx, _, _, _, _, rfl, token_cons _ _, token_cons _ _,
      ⟨_, token_cons _ _, hp, _, _, _, _, rfl, token_cons _ _, token_cons _ _, hnull _,
        hq, _, _, _, _, token_cons _ _, token_cons _ _, token_cons _ _, hyes _, token_cons _ _⟩,
      hname, _, _, _, _, token_cons _ _, token_cons _ _, token_cons _ _, ⟨ha, token_cons _ _⟩,
      token_cons _ _⟩
  have htext' : IsText v' "\x7b\"name\":\"a\",\"x\":\x7b\"q\":true,\"p\":null\x7d\x7d" := by
    refine ⟨[], ?_, nofun⟩
    rw [show String.toList _ = '\x7b' :: '"' :: 'n' :: 'a' :: 'm' :: 'e' :: '"' :: ':' :: '"' ::
      'a' :: '"' :: ',' :: '"' :: 'x' :: '"' :: ':' :: '\x7b' :: '"' :: 'q' :: '"' :: ':' ::
      (['t', 'r', 'u', 'e'] ++ ',' :: '"' :: 'p' :: '"' :: ':' :: (['n', 'u', 'l', 'l'] ++
      ['\x7d', '\x7d'])) by decide +kernel]
    exact ⟨_, token_cons _ _, hname, _, _, _, _, rfl, token_cons _ _, token_cons _ _,
      ⟨ha, token_cons _ _⟩, hx, _, _, _, _, token_cons _ _, token_cons _ _, token_cons _ _,
      ⟨_, token_cons _ _, hq, _, _, _, _, rfl, token_cons _ _, token_cons _ _, hyes _,
        hp, _, _, _, _, token_cons _ _, token_cons _ _, token_cons _ _, hnull _, token_cons _ _⟩,
      token_cons _ _⟩
  have hinner : ShuffledMember (['x'], .object [(['p'], null), (['q'], yes)])
      (['x'], .object [(['q'], yes), (['p'], null)]) :=
    .mk ['x'] (.object (.cons (.mk ['p'] (.word _)) (.cons (.mk ['q'] (.word _)) .nil))
      (.swap _ _ []))
  have hshuffled : Shuffled v v' :=
    .object (.cons hinner (.cons (.mk _ (.string ['a'])) .nil)) (.swap _ _ [])
  have hdistinct : v.Distinct := by
    refine ⟨?_, ⟨?_, trivial, trivial, trivial⟩, trivial, trivial⟩
    all_goals decide +kernel
  exact ⟨v, v', _, _, rfl, rfl, htext, htext', hshuffled, hdistinct,
    reading_ignores_member_order htext htext' hshuffled hdistinct⟩

end InjectionGrammar
