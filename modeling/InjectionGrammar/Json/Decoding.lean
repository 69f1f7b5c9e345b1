import InjectionGrammar.Grammar
import InjectionGrammar.Json.Reader

/-!
Reading grammars and rules from JSON. Of several captures of one group, or rules under one key, the
last one stays.
-/
namespace InjectionGrammar
open Json

/-- Reads the number of a group, behind the quote of the key that holds it. -/
def readGroup : Reader UInt32 := fun s =>
  match s with
  | [] => stop .keyNotNumber []
  | c :: r =>
    if c.isDigit ∨ c = '-' then do
      let (n, rest) ← if c = '-' then readNumber true r else readNumber false (c :: r)
      match n with
      | .decimal _ _ => stop (.wrongType n.found "u32") rest
      | .integer n =>
        if n < 0 ∨ (UInt32.size : Int) ≤ n then stop (.wrongValue (.integer n) "u32") rest
        else
          match rest with
          | [] => stop .expectedQuote []
          | q :: rest =>
            if q = '"' then .ok (n.toNat.toUInt32, rest) else stopAt .expectedQuote (q :: rest)
    else stop .keyNotNumber (c :: r)

/-- The scope that a group is assigned to is the name in a record of its own. -/
def captureLayout : Layout String where
  title := "struct Capture"
  optional := false
  initial := ""
  fields := [⟨"name", readString.map fun scope _ => scope⟩]

def readCaptures (levels : Nat) : Reader Captures :=
  (readPairs levels readGroup (captureLayout.read (levels - 1))).map OrderedMap.ofList

def ruleLayout (captures : Reader Captures) (patterns : Reader (List Rule)) : Layout Rule where
  title := "struct Rule"
  optional := true
  initial := {}
  fields := [
    ⟨"include", readOptional.map fun s r => { r with target := s }⟩,
    ⟨"name", readOptional.map fun s r => { r with name := s }⟩,
    ⟨"contentName", readOptional.map fun s r => { r with contentName := s }⟩,
    ⟨"begin", readOptional.map fun s r => { r with opening := s }⟩,
    ⟨"beginCaptures", captures.map fun cs r => { r with captures := cs }⟩,
    ⟨"end", readOptional.map fun s r => { r with closing := s }⟩,
    ⟨"patterns", patterns.map fun rs r => { r with patterns := rs }⟩]

/-- Reads a rule. The rules inside of it are two levels down, behind the list of them. -/
def readRule : Nat → Reader Rule
  | 0 => (ruleLayout (readCaptures 0) (readList 0 (stopAt .tooDeep))).read 0
  | 1 => (ruleLayout (readCaptures 0) (readList 0 (stopAt .tooDeep))).read 1
  | n + 2 => (ruleLayout (readCaptures (n + 1)) (readList (n + 1) (readRule n))).read (n + 2)

def Rule.ofText (text : String) : Except Failure Rule :=
  (readRule depthLimit).run text

def grammarLayout : Layout Grammar where
  title := "struct GrammarDocument"
  optional := false
  initial := ⟨[], "", [], "", .empty⟩
  fields := [
    ⟨"fileTypes", (readList (depthLimit - 1) readString).map fun ts g =>
      { g with fileTypes := ts }⟩,
    ⟨"injectionSelector", readString.map fun s g => { g with injectionSelector := s }⟩,
    ⟨"patterns", (readList (depthLimit - 1) (readRule (depthLimit - 2))).map fun rs g =>
      { g with patterns := rs }⟩,
    ⟨"scopeName", readString.map fun s g => { g with scopeName := s }⟩,
    ⟨"repository",
      (readPairs (depthLimit - 1) readQuoted (readRule (depthLimit - 2))).map fun es g =>
        { g with repository := .ofList es }⟩]

def Grammar.ofText (text : String) : Except Failure Grammar :=
  (grammarLayout.read depthLimit).run text

end InjectionGrammar
