import InjectionGrammar.Json.Encoding
import InjectionGrammar.Proofs.Builder.Repository
import Mathlib.Logic.Equiv.Basic

/-! The order of the languages is nothing but their precedence: it decides in which order the outer
rule refers to them, and nothing else. -/
namespace InjectionGrammar

section Rearrangement
variable {α β : Type} {as bs cs : List α} {σ τ : Equiv.Perm ℕ}

/-- The second list has at each place what the first has at the place that a permutation gives. -/
def Rearranges (σ : Equiv.Perm ℕ) (as bs : List α) : Prop :=
  ∀ i : ℕ, bs[i]? = as[σ i]?

theorem Rearranges.map (h : Rearranges σ as bs) (f : α → β) :
    Rearranges σ (as.map f) (bs.map f) := by
  intro i
  rw [List.getElem?_map, List.getElem?_map, h i]

theorem Rearranges.trans (h : Rearranges σ as bs) (h' : Rearranges τ bs cs) :
    Rearranges (τ.trans σ) as cs := by
  intro i
  rw [h' i, h (τ i)]
  rfl

/-- The same behind one more place at the front, which stays where it is. -/
def shifted (σ : Equiv.Perm ℕ) : Equiv.Perm ℕ where
  toFun
    | 0 => 0
    | i + 1 => σ i + 1
  invFun
    | 0 => 0
    | i + 1 => σ.symm i + 1
  left_inv i := by cases i <;> simp
  right_inv i := by cases i <;> simp

theorem Rearranges.cons (h : Rearranges σ as bs) (a : α) :
    Rearranges (shifted σ) (a :: as) (a :: bs) := by
  intro i
  cases i with
  | zero => rfl
  | succ i => exact h i

theorem rearranges_swap (a b : α) (as : List α) :
    Rearranges (Equiv.swap 0 1) (a :: b :: as) (b :: a :: as) := by
  intro i
  match i with
  | 0 => rw [Equiv.swap_apply_left]; rfl
  | 1 => rw [Equiv.swap_apply_right]; rfl
  | i + 2 => rw [Equiv.swap_apply_of_ne_of_ne (by omega) (by omega)]; rfl

theorem exists_rearranges (h : as.Perm bs) : ∃ σ, Rearranges σ as bs := by
  induction h with
  | nil => exact ⟨Equiv.refl ℕ, fun _ => rfl⟩
  | cons a _ ih =>
    obtain ⟨σ, hσ⟩ := ih
    exact ⟨shifted σ, hσ.cons a⟩
  | swap a b as => exact ⟨Equiv.swap 0 1, rearranges_swap b a as⟩
  | trans _ _ ih ih' =>
    obtain ⟨σ, hσ⟩ := ih
    obtain ⟨τ, hτ⟩ := ih'
    exact ⟨τ.trans σ, hσ.trans hτ⟩

end Rearrangement

namespace Json

theorem exists_indentedMembers_concat (level : Nat) (ms : List (String × Json)) (k : String)
    (v : Json) : ∃ front, indentedMembers level (ms ++ [(k, v)]) =
      front ++ (quote k ++ ':' :: ' ' :: indented level v) := by
  induction ms with
  | nil =>
    refine ⟨',' :: newline level, ?_⟩
    simp [indentedMembers]
  | cons m ms ih =>
    obtain ⟨front, hfront⟩ := ih
    refine ⟨',' :: (newline level ++ (quote m.1 ++ ':' :: ' ' :: (indented level m.2 ++ front))), ?_⟩
    rw [List.cons_append, indentedMembers, hfront]
    simp

/-- The last member of an object is printed at its end. -/
theorem exists_indented_concat (level : Nat) (m : String × Json) (ms : List (String × Json))
    (k : String) (v : Json) : ∃ front, indented level (.object (m :: ms ++ [(k, v)])) =
      front ++ (quote k ++ ':' :: ' ' :: (indented (level + 1) v ++ (newline level ++ ['\x7d']))) := by
  obtain ⟨front, hfront⟩ := exists_indentedMembers_concat (level + 1) ms k v
  refine ⟨'\x7b' :: (newline (level + 1) ++ (quote m.1 ++ ':' :: ' ' ::
    (indented (level + 1) m.2 ++ front))), ?_⟩
  rw [List.cons_append, indented, hfront]
  simp

end Json

namespace Grammar

/-- The text of the repository within the file of a grammar. -/
def repositoryText (g : Grammar) : String :=
  String.ofList (Json.indented 1 (.object (g.repository.entries.map fun e => (e.1, e.2.toJson))))

/-- The file of a grammar ends with its repository. -/
theorem exists_toText_eq (g : Grammar) :
    ∃ front, g.toText = front ++ "\"repository\": " ++ g.repositoryText ++ "\n\x7d\n" := by
  obtain ⟨front, hfront⟩ := Json.exists_indented_concat 0
    ("fileTypes", .array (g.fileTypes.map .string))
    [("injectionSelector", .string g.injectionSelector),
      ("patterns", .array (Rule.listToJson g.patterns)), ("scopeName", .string g.scopeName)]
    "repository" (.object (g.repository.entries.map fun e => (e.1, e.2.toJson)))
  refine ⟨String.ofList front, ?_⟩
  rw [toText, Json.toFile, toJson]
  change String.ofList (Json.indented 0 (.object (_ :: [_, _, _] ++ [_])) ++ ['\n']) = _
  rw [hfront]
  apply String.toList_inj.1
  simp [repositoryText, Json.quote, Json.newline, Json.escapeChar]

end Grammar

namespace Registry
variable {r r' : Registry} {o : Options} {g g' : Grammar} {m : OrderedMap String Rule}
  {ls : List Language}

theorem exists_fileRules (hrule : ∀ l ∈ ls, l.rule = .ok l.embedding)
    (hkey : ∀ l ∈ ls, m.contains l.repositoryKey = false) (hnodup : (ls.map (·.name)).Nodup) :
    ∃ m', fileRules m ls = .ok m' := by
  induction ls generalizing m with
  | nil => exact ⟨m, rfl⟩
  | cons l ls ih =>
    obtain ⟨hname, hnodup⟩ := List.nodup_cons.1 hnodup
    have hrest : ∀ l' ∈ ls,
        (m.insert l.repositoryKey l.embedding).contains l'.repositoryKey = false := by
      intro l' hl'
      rw [OrderedMap.contains_insert, hkey l' (List.mem_cons_of_mem _ hl'), Bool.or_false]
      apply decide_eq_false
      -- equal keys come from equal names only, and the name does not come again
      intro hkeys
      rw [Language.repositoryKey_inj] at hkeys
      exact hname (List.mem_map.2 ⟨l', hl', hkeys.symm⟩)
    obtain ⟨m', hm'⟩ := ih (fun l' hl' => hrule l' (List.mem_cons_of_mem _ hl')) hrest hnodup
    exact ⟨m', fileRules_cons_eq_ok.2
      ⟨hrule l List.mem_cons_self, hkey l List.mem_cons_self, hm'⟩⟩

/-- Whether a grammar can be built is a matter of each language by itself and of the names. -/
theorem exists_grammar_iff : (∃ g, r.grammar o = .ok g) ↔
    (∀ l ∈ r.languages, l.rule = .ok l.embedding) ∧ (r.languages.map (·.name)).Nodup := by
  constructor
  · rintro ⟨g, hg⟩
    obtain ⟨m, hm, -⟩ := grammar_eq_ok.1 hg
    exact ⟨fun l hl => rule_of_fileRules hm hl, names_nodup_of_fileRules hm⟩
  · rintro ⟨hrule, hnodup⟩
    obtain ⟨m, hm⟩ := exists_fileRules (m := .empty) hrule (fun _ _ => rfl) hnodup
    exact ⟨_, grammar_eq_ok.2 ⟨m, hm, rfl⟩⟩

theorem repository_of_perm (h : r.languages.Perm r'.languages) (hg : r.grammar o = .ok g)
    (hg' : r'.grammar o = .ok g') : g'.repository = g.repository := by
  have hkeys := keys_nodup_of_grammar hg
  obtain ⟨m, hm, rfl⟩ := grammar_eq_ok.1 hg
  obtain ⟨m', hm', rfl⟩ := grammar_eq_ok.1 hg'
  apply OrderedMap.eq_of_get?
  intro k
  rw [get?_fileRules hm, get?_fileRules hm', find?_key_perm h hkeys]

/-- The outer rules of two registries of the same languages differ in the order of their references,
which is the order of the languages. -/
theorem topLevelPatterns_rearranged (r r' : Registry) :
    ∃ outer outer', r.topLevelPatterns = [outer] ∧ r'.topLevelPatterns = [outer'] ∧
      outer' = outer.withPatterns outer'.patterns ∧
      ∀ σ, Rearranges σ r.languages r'.languages →
        Rearranges σ outer.patterns outer'.patterns :=
  ⟨_, _, rfl, rfl, rfl, fun _ h => h.map _⟩

/-- Of two registries of the same languages in different orders both can be built from or neither.
Their grammars have the same repository, which is printed as the same text, and the same file types,
selector and scope name. Their outer rules are the same but for the rules inside, which are rearranged
as the languages are. -/
theorem order_is_precedence (h : r.languages.Perm r'.languages) (o : Options) :
    ((∃ g, r.grammar o = .ok g) ↔ ∃ g, r'.grammar o = .ok g) ∧
    (∃ σ, Rearranges σ r.languages r'.languages) ∧
    ∀ g g', r.grammar o = .ok g → r'.grammar o = .ok g' →
      g'.repository = g.repository ∧ g'.fileTypes = g.fileTypes ∧
      g'.injectionSelector = g.injectionSelector ∧ g'.scopeName = g.scopeName ∧
      (∃ outer outer', g.patterns = [outer] ∧ g'.patterns = [outer'] ∧
        outer' = outer.withPatterns outer'.patterns ∧
        ∀ σ, Rearranges σ r.languages r'.languages →
          Rearranges σ outer.patterns outer'.patterns) ∧
      ∃ front front', g.toText = front ++ "\"repository\": " ++ g.repositoryText ++ "\n\x7d\n" ∧
        g'.toText = front' ++ "\"repository\": " ++ g.repositoryText ++ "\n\x7d\n" := by
  refine ⟨?_, exists_rearranges h, ?_⟩
  · rw [exists_grammar_iff, exists_grammar_iff, (h.map _).nodup_iff]
    simp only [h.mem_iff]
  · intro g g' hg hg'
    have hrepository := repository_of_perm h hg hg'
    have htext : g'.repositoryText = g.repositoryText := by
      rw [Grammar.repositoryText, hrepository, Grammar.repositoryText]
    obtain ⟨front, hfront⟩ := g.exists_toText_eq
    obtain ⟨front', hfront'⟩ := g'.exists_toText_eq
    rw [htext] at hfront'
    obtain ⟨m, -, rfl⟩ := grammar_eq_ok.1 hg
    obtain ⟨m', -, rfl⟩ := grammar_eq_ok.1 hg'
    exact ⟨hrepository, rfl, rfl, rfl, r.topLevelPatterns_rearranged r', front, front', hfront,
      hfront'⟩

/-- Languages that claim the same alias, the other way round. -/
theorem order_is_precedence_of_shared :
    let js : Language := ⟨"javascript", ["js"], .one "source.js"⟩
    let jsx : Language := ⟨"jsx", ["jsx", "js"], .many ["source.js.jsx"]⟩
    let o : Options := ⟨"inline.test", ["source.yaml"]⟩
    ∃ g g' outer outer', (Registry.mk [js, jsx]).grammar o = .ok g ∧
      (Registry.mk [jsx, js]).grammar o = .ok g' ∧ g'.repository = g.repository ∧
      g.patterns = [outer] ∧ g'.patterns = [outer'] ∧
      Rearranges (Equiv.swap 0 1) outer.patterns outer'.patterns ∧
      outer.targets = ["#commentTaggedString-javascript", "#commentTaggedString-jsx"] := by
  intro js jsx o
  have hperm : (Registry.mk [js, jsx]).languages.Perm (Registry.mk [jsx, js]).languages :=
    .swap jsx js []
  obtain ⟨-, -, hgrammars⟩ := order_is_precedence hperm o
  have hg : (Registry.mk [js, jsx]).grammar o = .ok _ := rfl
  have hg' : (Registry.mk [jsx, js]).grammar o = .ok _ := rfl
  obtain ⟨hrepository, -, -, -, ⟨outer, outer', houter, houter', -, hrearranged⟩, -⟩ :=
    hgrammars _ _ hg hg'
  refine ⟨_, _, outer, outer', hg, hg', hrepository, houter, houter',
    hrearranged _ (rearranges_swap js jsx []), ?_⟩
  obtain rfl := (List.cons.inj houter).1
  rfl

end Registry

end InjectionGrammar
