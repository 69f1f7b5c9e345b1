import InjectionGrammar.Json.Decoding
import InjectionGrammar.Proofs.Builder.Repository
import InjectionGrammar.Proofs.Grammar.Draft
import InjectionGrammar.Proofs.Json.Along

/-! Whatever is read from a text or built from a registry comes out of a draft. -/
namespace InjectionGrammar
open Json

namespace Rule.Draft

/-- The fields of a rule, with the assignments as they stand in the text. -/
def layout (captures : Reader (List (UInt32 × String))) (patterns : Reader (List Draft)) :
    Layout Draft where
  title := "struct Rule"
  optional := true
  initial := {}
  fields := [
    ⟨"include", readOptional.map fun s d => { d with target := s }⟩,
    ⟨"name", readOptional.map fun s d => { d with name := s }⟩,
    ⟨"contentName", readOptional.map fun s d => { d with contentName := s }⟩,
    ⟨"begin", readOptional.map fun s d => { d with opening := s }⟩,
    ⟨"beginCaptures", captures.map fun cs d => { d with captures := cs }⟩,
    ⟨"end", readOptional.map fun s d => { d with closing := s }⟩,
    ⟨"patterns", patterns.map fun ds d => { d with patterns := ds }⟩]

/-- Reads the assignments to groups. -/
def readAssignments (levels : Nat) : Reader (List (UInt32 × String)) :=
  readPairs levels readGroup (captureLayout.read (levels - 1))

/-- Reads a draft through the same levels as a rule. -/
def read : Nat → Reader Draft
  | 0 => (layout (readAssignments 0) (readList 0 (stopAt .tooDeep))).read 0
  | 1 => (layout (readAssignments 0) (readList 0 (stopAt .tooDeep))).read 1
  | n + 2 => (layout (readAssignments (n + 1)) (readList (n + 1) (read n))).read (n + 2)

def ofText (text : String) : Except Failure Draft :=
  (read depthLimit).run text

theorem layout_along (captures : Reader (List (UInt32 × String))) (patterns : Reader (List Draft)) :
    (layout captures patterns).Along settle
      (ruleLayout (captures.map OrderedMap.ofList) (patterns.map (List.map settle))) where
  title := rfl
  optional := rfl
  initial := rfl
  fields := by
    unfold ruleLayout
    rw [Reader.map_map, Reader.map_map]
    repeat' constructor
    all_goals
      intro a d
      rw [settle_eq, settle_eq]

end Rule.Draft

/-- Where no level is left for a list, there is none of drafts either. -/
theorem readList_none : (readList 0 (stopAt .tooDeep) : Reader (List Rule)) =
    (readList 0 (stopAt .tooDeep)).map (List.map Rule.Draft.settle) :=
  readList_map (stopAt .tooDeep) Rule.Draft.settle 0

/-- The rule that is read is what comes out of the draft that is read. -/
theorem readRule_eq (n : Nat) : readRule n = (Rule.Draft.read n).map Rule.Draft.settle := by
  induction n using readRule.induct with
  | case1 =>
    rw [readRule, readList_none]
    exact (Rule.Draft.layout_along _ _).read 0
  | case2 =>
    rw [readRule, readList_none]
    exact (Rule.Draft.layout_along _ _).read 1
  | case3 n ih =>
    rw [readRule, ih, readList_map]
    exact (Rule.Draft.layout_along _ _).read (n + 2)

theorem Rule.ofText_eq (text : String) :
    Rule.ofText text = (Rule.Draft.ofText text).map Rule.Draft.settle := by
  rw [Rule.ofText, readRule_eq, Reader.run_map]
  rfl

namespace Grammar.Draft

/-- The fields of a grammar, with the entries of the repository as they stand in the text. -/
def layout : Layout Draft where
  title := "struct GrammarDocument"
  optional := false
  initial := ⟨[], "", [], "", []⟩
  fields := [
    ⟨"fileTypes", (readList (depthLimit - 1) readString).map fun ts d =>
      { d with fileTypes := ts }⟩,
    ⟨"injectionSelector", readString.map fun s d => { d with injectionSelector := s }⟩,
    ⟨"patterns", (readList (depthLimit - 1) (Rule.Draft.read (depthLimit - 2))).map fun ds d =>
      { d with patterns := ds }⟩,
    ⟨"scopeName", readString.map fun s d => { d with scopeName := s }⟩,
    ⟨"repository",
      (readPairs (depthLimit - 1) readQuoted (Rule.Draft.read (depthLimit - 2))).map fun es d =>
        { d with filed := es }⟩]

def ofText (text : String) : Except Failure Draft :=
  (layout.read depthLimit).run text

theorem layout_along : layout.Along settle grammarLayout where
  title := rfl
  optional := rfl
  initial := rfl
  fields := by
    unfold grammarLayout
    rw [readRule_eq, readList_map, readPairs_map, Reader.map_map, Reader.map_map]
    repeat' constructor
    all_goals
      intro a d
      rfl

end Grammar.Draft

theorem Grammar.ofText_eq (text : String) :
    Grammar.ofText text = (Grammar.Draft.ofText text).map Grammar.Draft.settle := by
  rw [Grammar.ofText, Grammar.Draft.layout_along.read, Reader.run_map]
  rfl

/-! Building. -/

namespace Rule.Draft

def reference (target : String) : Draft where
  target := some target

def span (opening closing : String) : Draft where
  opening := some opening
  closing := some closing

theorem settle_reference (target : String) : (reference target).settle = Rule.reference target := by
  rw [settle_eq]
  rfl

theorem settle_span (opening closing : String) :
    (span opening closing).settle = Rule.span opening closing := by
  rw [settle_eq]
  rfl

end Rule.Draft

namespace Language

/-- The calls that make the rule of a language. -/
def draft (l : Language) : Rule.Draft :=
  let fence : Rule.Draft := [.name "string.unquoted.block.yaml",
    .patterns (l.source.toList.map Rule.Draft.reference)].foldl Rule.Draft.change
      (.span Pattern.fenceBegin Pattern.fenceEnd)
  [.contentName l.contentScope, .capture 0 "comment.line.number-sign.yaml",
    .capture 1 "punctuation.definition.comment.yaml", .capture 2 l.tagScope,
    .patterns [fence]].foldl Rule.Draft.change (.span l.tagPattern Pattern.blockScalarEnd)

theorem settle_draft (l : Language) : l.draft.settle = l.embedding := by
  simp only [draft, Rule.Draft.settle_changes, Rule.Draft.settle_span, List.map_cons, List.map_nil,
    Change.map, List.map_map]
  rfl

end Language

namespace Registry
variable {r : Registry} {o : Options} {g : Grammar} {m m' : OrderedMap String Rule}
  {ls : List Language}

/-- The calls that make the grammar of a registry without flaws. -/
def draft (r : Registry) (o : Options) : Grammar.Draft where
  fileTypes := []
  injectionSelector := Selector.ofScopes o.targetScopes
  patterns := [[.capture 1 "keyword.control.flow.block-scalar.literal.yaml",
    .capture 2 "constant.numeric.indentation-indicator.yaml",
    .capture 3 "storage.modifier.chomping-indicator.yaml",
    .patterns ((r.languages.map (·.repositoryInclude)).map Rule.Draft.reference)].foldl
      Rule.Draft.change (.span Pattern.blockScalarBegin Pattern.blockScalarEnd)]
  scopeName := o.scopeName
  filed := r.languages.map fun l => (l.repositoryKey, l.draft)

theorem eq_foldl_of_fileRules (h : fileRules m ls = .ok m') :
    m' = ls.foldl (fun m l => m.insert l.repositoryKey l.embedding) m := by
  induction ls generalizing m with
  | nil => exact (Except.ok.inj h).symm
  | cons l ls ih =>
    obtain ⟨-, -, h⟩ := fileRules_cons_eq_ok.1 h
    exact ih h

theorem eq_settle_of_grammar (h : r.grammar o = .ok g) : g = (r.draft o).settle := by
  obtain ⟨m, hm, rfl⟩ := grammar_eq_ok.1 h
  have hpatterns : r.topLevelPatterns = (r.draft o).patterns.map Rule.Draft.settle := by
    simp only [draft, Rule.Draft.settle_changes, Rule.Draft.settle_span, List.map_cons,
      List.map_nil, Change.map, List.map_map]
    rfl
  have hrepository : m = .ofList ((r.draft o).filed.map fun e => (e.1, e.2.settle)) := by
    rw [eq_foldl_of_fileRules hm, draft, List.map_map, OrderedMap.ofList, List.foldl_map]
    simp only [Function.comp_apply, Language.settle_draft]
  rw [hpatterns, hrepository]
  rfl

end Registry
end InjectionGrammar
