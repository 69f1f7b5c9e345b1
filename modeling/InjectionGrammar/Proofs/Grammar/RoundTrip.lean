import InjectionGrammar.Proofs.Builder.Repository
import InjectionGrammar.Proofs.Grammar.Reading

/-! Grammars are read back from their text unless rules nest too deep in them. -/
namespace InjectionGrammar
open Json
variable {n : Nat}

namespace Json

theorem depthOfItems_le {vs : List Json} (h : ∀ v ∈ vs, v.depth ≤ n) : depthOfItems vs ≤ n := by
  induction vs with
  | nil => exact Nat.zero_le n
  | cons v vs ih =>
    have hv := h v List.mem_cons_self
    have hvs := ih fun x hx => h x (List.mem_cons_of_mem _ hx)
    rw [depthOfItems]
    omega

theorem depthOfMembers_le {ms : List (String × Json)} (h : ∀ m ∈ ms, m.2.depth ≤ n) :
    depthOfMembers ms ≤ n := by
  induction ms with
  | nil => exact Nat.zero_le n
  | cons m ms ih =>
    have hm := h m List.mem_cons_self
    have hms := ih fun x hx => h x (List.mem_cons_of_mem _ hx)
    rw [depthOfMembers]
    omega

theorem depthOfMembers_append (ms ms' : List (String × Json)) :
    depthOfMembers (ms ++ ms') = max (depthOfMembers ms) (depthOfMembers ms') := by
  induction ms with
  | nil => exact (Nat.zero_max _).symm
  | cons m ms ih => rw [List.cons_append, depthOfMembers, ih, depthOfMembers, Nat.max_assoc]

end Json

theorem depthOfMembers_optionalMember (key : String) (o : Option String) :
    depthOfMembers (optionalMember key o) = 0 := by
  cases o <;> rfl

theorem Captures.depth_toJson_le (cs : Captures) : cs.toJson.depth ≤ 2 := by
  have hmembers : depthOfMembers (cs.entries.map fun e =>
      (numeral e.1.toNat, Json.object [("name", .string e.2)])) ≤ 1 := by
    apply depthOfMembers_le
    intro m hm
    obtain ⟨e, -, rfl⟩ := List.mem_map.1 hm
    exact Nat.le_refl 1
  rw [Captures.toJson, depth]
  omega

namespace Rule
variable {r : Rule} {rs : List Rule}

theorem depthOfItems_listToJson_le (h : ∀ r ∈ rs, r.toJson.depth ≤ n) :
    depthOfItems (listToJson rs) ≤ n := by
  rw [listToJson_eq_map]
  apply depthOfItems_le
  intro v hv
  obtain ⟨r, hr, rfl⟩ := List.mem_map.1 hv
  exact h r hr

theorem depthOfMembers_patternsMember_le (h : ∀ r ∈ rs, r.toJson.depth < n) :
    depthOfMembers (patternsMember rs) ≤ n := by
  cases rs with
  | nil => exact Nat.zero_le _
  | cons r rs =>
    have hr := h r List.mem_cons_self
    have hitems : depthOfItems (listToJson (r :: rs)) ≤ n - 1 :=
      depthOfItems_listToJson_le fun r' hr' => Nat.le_sub_one_of_lt (h r' hr')
    rw [listToJson] at hitems
    rw [patternsMember, depthOfMembers, depth, depthOfMembers]
    omega

theorem depthOfMembers_captures_le (h : r.captures.isEmpty = false → 2 ≤ n) : depthOfMembers
    (if r.captures.isEmpty then [] else [("beginCaptures", r.captures.toJson)]) ≤ n := by
  have hcs := r.captures.depth_toJson_le
  cases hempty : r.captures.isEmpty with
  | true => exact Nat.zero_le n
  | false =>
    have hn := h hempty
    change max r.captures.toJson.depth 0 ≤ n
    omega

/-- A rule encloses its captures, which take two levels, and the list of its inner rules. -/
theorem depth_toJson_le_succ (hcaptures : r.captures.isEmpty = false → 2 ≤ n)
    (hpatterns : ∀ r' ∈ r.patterns, r'.toJson.depth < n) : r.toJson.depth ≤ n + 1 := by
  have hinner := depthOfMembers_patternsMember_le hpatterns
  have hgroups := depthOfMembers_captures_le hcaptures
  rw [toJson_eq, depth, members]
  simp only [depthOfMembers_append, depthOfMembers_optionalMember]
  omega

/-- The list of the inner rules and the rule itself enclose the inner rules. -/
theorem depth_toJson_le (hn : 1 ≤ n) (h : ∀ r' ∈ r.patterns, r'.toJson.depth ≤ n) :
    r.toJson.depth ≤ n + 2 :=
  depth_toJson_le_succ (fun _ => Nat.succ_le_succ hn) fun r' hr' => Nat.lt_succ_of_le (h r' hr')

theorem depth_reference_le (target : String) : (reference target).toJson.depth ≤ 3 :=
  depth_toJson_le (Nat.le_refl 1) (by rintro _ ⟨⟩)

/-- Rules that lie inside each other. -/
def nest : Nat → Rule
  | 0 => {}
  | k + 1 => { patterns := [nest k] }

theorem depth_nest (k : Nat) : (nest k).toJson.depth = 2 * k + 1 := by
  induction k with
  | zero => rfl
  | succ k ih =>
    rw [nest, toJson_eq, depth]
    change max (max (nest k).toJson.depth 0 + 1) 0 + 1 = _
    omega

end Rule

theorem Language.depth_embedding_le (l : Language) : l.embedding.toJson.depth ≤ 7 := by
  have hfence : l.fence.toJson.depth ≤ 5 := by
    apply Rule.depth_toJson_le (by omega)
    intro r hr
    obtain ⟨target, -, rfl⟩ := List.mem_map.1 hr
    exact Rule.depth_reference_le target
  apply Rule.depth_toJson_le (by omega)
  intro r hr
  obtain rfl := List.mem_singleton.1 hr
  exact hfence

theorem Registry.depth_topLevelPatterns_le (r : Registry) {rule : Rule}
    (h : rule ∈ r.topLevelPatterns) : rule.toJson.depth ≤ 5 := by
  obtain rfl := List.mem_singleton.1 h
  apply Rule.depth_toJson_le (by omega)
  intro inner hinner
  obtain ⟨l, -, rfl⟩ := List.mem_map.1 hinner
  exact Rule.depth_reference_le _

namespace Grammar

/-- A grammar encloses its rules, by their list or by the repository. -/
theorem depth_toJson_le {g : Grammar} (hpatterns : ∀ r ∈ g.patterns, r.toJson.depth ≤ n)
    (hrepository : ∀ e ∈ g.repository.entries, e.2.toJson.depth ≤ n) :
    g.toJson.depth ≤ n + 2 := by
  have hfileTypes : depthOfItems (g.fileTypes.map .string) ≤ 0 := by
    apply depthOfItems_le
    intro v hv
    obtain ⟨s, -, rfl⟩ := List.mem_map.1 hv
    exact Nat.le_refl 0
  have hrules := Rule.depthOfItems_listToJson_le hpatterns
  have hfiled : depthOfMembers (g.repository.entries.map fun e => (e.1, e.2.toJson)) ≤ n := by
    apply depthOfMembers_le
    intro x hx
    obtain ⟨e, he, rfl⟩ := List.mem_map.1 hx
    exact hrepository e he
  simp only [toJson, depth, depthOfMembers]
  omega

/-- The rules that a registry gives rise to nest to a fixed depth. -/
theorem depth_toJson_of_grammar {r : Registry} {o : Options} {g : Grammar}
    (h : r.grammar o = .ok g) : g.toJson.depth ≤ 9 := by
  obtain ⟨m, hm, rfl⟩ := Registry.grammar_eq_ok.1 h
  apply depth_toJson_le
  · intro rule hrule
    exact Nat.le_trans (r.depth_topLevelPatterns_le hrule) (by omega)
  · intro e he
    obtain ⟨l, -, hl⟩ := Registry.exists_of_fileRules hm he
    rw [hl]
    exact l.depth_embedding_le

/-- A grammar is read back from its text, unless more containers are open in it at once than may
be; then nothing is read. What is built from a registry is always read back. -/
theorem ofText_toText (g : Grammar) :
    (nesting g.toText ≤ 127 → ofText g.toText = .ok g) ∧
    (127 < nesting g.toText → ∃ f, ofText g.toText = .error f) ∧
    ∀ (r : Registry) (o : Options), r.grammar o = .ok g → ofText g.toText = .ok g := by
  have hnesting : nesting g.toText = g.toJson.depth := nesting_toFile g.toJson
  have hread : Except.YieldsIff (g.toJson.depth ≤ 127) (ofText g.toText) g :=
    run_toFile (decodes_grammarLayout g)
  rw [hnesting]
  refine ⟨hread.ok, ?_, ?_⟩
  · intro hdeep
    exact hread.error (Nat.not_le.2 hdeep)
  · intro r o h
    have hdepth := depth_toJson_of_grammar h
    exact hread.ok (by omega)

/-- A grammar of rules that lie inside each other. -/
def nest (k : Nat) : Grammar :=
  ⟨[], "", [Rule.nest k], "", .empty⟩

theorem nesting_nest (k : Nat) : nesting (nest k).toText = 2 * k + 3 := by
  have hrule := Rule.depth_nest k
  rw [toText, nesting_toFile]
  simp only [nest, toJson, depth, depthOfMembers, depthOfItems, Rule.listToJson, List.map_nil,
    OrderedMap.empty, hrule]
  omega

/-- The deepest grammar that is read, one that is not, and a grammar of a registry. -/
theorem ofText_toText_of_nest : ofText (nest 62).toText = .ok (nest 62) ∧
    (∃ f, ofText (nest 63).toText = .error f) ∧
    ∃ g, (Registry.mk [⟨"sql", ["sql"], .one "source.sql"⟩]).grammar
      ⟨"inline.sql", ["source.yaml"]⟩ = .ok g ∧ ofText g.toText = .ok g := by
  have hbuilt : (Registry.mk [⟨"sql", ["sql"], .one "source.sql"⟩]).grammar
      ⟨"inline.sql", ["source.yaml"]⟩ = .ok _ := rfl
  refine ⟨(ofText_toText _).1 ?_, (ofText_toText _).2.1 ?_, _, hbuilt,
    (ofText_toText _).2.2 _ _ hbuilt⟩
  · exact Nat.le_of_eq (nesting_nest 62)
  · have hnesting := nesting_nest 63
    omega

end Grammar
end InjectionGrammar
