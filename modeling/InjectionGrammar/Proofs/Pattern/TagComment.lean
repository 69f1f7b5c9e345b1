import InjectionGrammar.Proofs.Pattern.Alternation
import InjectionGrammar.Proofs.Pattern.Expression

/-! Tag comments as regular expressions: they match the comments that consist of an alias. -/
namespace InjectionGrammar
namespace Pattern

/-- What has been read of a group: the alternatives before the last bar, and the one behind it. -/
structure Group where
  alternatives : Option Expression := none
  current : Expression := .empty
  deriving DecidableEq, Repr

namespace Group

def close (g : Group) : Expression :=
  match g.alternatives with
  | none => g.current
  | some e => .either e g.current

def append (g : Group) (e : Expression) : Group :=
  { g with current := .seq g.current e }

/-- Begins another alternative. -/
def branch (g : Group) : Group :=
  ⟨some g.close, .empty⟩

/-- Goes on by characters that stand for themselves. -/
def spell (g : Group) (t : List Char) : Group :=
  t.foldl (fun g c => g.append (.char c)) g

/-- Goes on by texts that stand for themselves, with a bar between each two. -/
def spellEach (g : Group) : List (List Char) → Group
  | [] => g
  | [t] => g.spell t
  | t :: t' :: ts => (g.spell t).branch.spellEach (t' :: ts)

variable {g : Group} {t u : List Char}

theorem denotes_close : g.close.Denotes u ↔
    (∃ e, g.alternatives = some e ∧ e.Denotes u) ∨ g.current.Denotes u := by
  unfold close
  cases g.alternatives with
  | none => simp
  | some e => simp

@[simp] theorem alternatives_spell : (g.spell t).alternatives = g.alternatives := by
  induction t generalizing g with
  | nil => rfl
  | cons c t ih => exact ih

theorem denotes_current_spell : (g.spell t).current.Denotes u ↔
    ∃ v, g.current.Denotes v ∧ u = v ++ t := by
  induction t generalizing g with
  | nil => simp [spell]
  | cons c t ih =>
    rw [spell, List.foldl_cons]
    refine ih.trans ?_
    simp only [append, Expression.denotes_seq, Expression.denotes_char]
    constructor
    · rintro ⟨_, ⟨v, _, hv, rfl, rfl⟩, rfl⟩
      exact ⟨v, hv, List.append_assoc v [c] t⟩
    · rintro ⟨v, hv, rfl⟩
      exact ⟨v ++ [c], ⟨v, [c], hv, rfl, rfl⟩, (List.append_assoc v [c] t).symm⟩

/-- The texts are what the group comes to stand for besides what it stood for before. -/
theorem denotes_close_spellEach (ts : List (List Char)) :
    (g.spellEach (t :: ts)).close.Denotes u ↔
      (∃ e, g.alternatives = some e ∧ e.Denotes u) ∨ (∃ v, g.current.Denotes v ∧ u = v ++ t) ∨
        u ∈ ts := by
  induction ts generalizing g t with
  | nil => simp [spellEach, denotes_close, denotes_current_spell]
  | cons t' ts ih =>
    rw [spellEach, ih]
    simp [branch, denotes_close, denotes_current_spell, or_assoc]

end Group

/-- Characters that stand for more than themselves, outside of what is read here. -/
def isOperator (c : Char) : Bool :=
  ['*', '+', '?', '.', '{', '}', ']', '^', '$'].contains c

/-- Reads the rest of a pattern, given the groups that are open around the innermost one. A
backslash before a letter or a digit has a meaning of its own, of which only the line break is
read here; before another character it takes any meaning away. -/
def parseFrom (g : Group) (outer : List Group) : List Char → Option Expression
  | [] => if outer.isEmpty then some g.close else none
  | c :: s =>
    if c = '(' then parseFrom {} (g :: outer) s
    else if c = ')' then
      match outer with
      | [] => none
      | h :: outer => parseFrom (h.append g.close) outer s
    else if c = '|' then parseFrom g.branch outer s
    else if c = '[' then
      match s with
      | ' ' :: '\\' :: 't' :: ']' :: '*' :: s => parseFrom (g.append .gap) outer s
      | _ => none
    else if c = '\\' then
      match s with
      | [] => none
      | d :: s =>
        if d = 'n' then parseFrom (g.append (.char '\n')) outer s
        else if d.isAlphanum then none
        else parseFrom (g.append (.char d)) outer s
    else if isOperator c then none
    else parseFrom (g.append (.char c)) outer s

/-- The expression that a pattern is written for, if it is made of no more than is read here. -/
def parse (pattern : String) : Option Expression :=
  parseFrom {} [] pattern.toList

variable {g : Group} {outer : List Group} {c : Char} {s t u : List Char}

theorem isAlphanum_of_isBlank (h : isBlank c = true) : c.isAlphanum = false := by
  simp only [isBlank, Bool.or_eq_true, Bool.and_eq_true, decide_eq_true_eq, beq_iff_eq] at h
  rw [Bool.eq_false_iff]
  intro hc
  have hrange : 48 ≤ c.toNat ∧ c.toNat ≤ 122 := by
    change ((decide (65 ≤ c.val ∧ c.val ≤ 90) || (decide (97 ≤ c.val) && decide (c.val ≤ 122))) ||
      (decide (48 ≤ c.val) && decide (c.val ≤ 57))) = true at hc
    simp only [Bool.or_eq_true, Bool.and_eq_true, decide_eq_true_eq, UInt32.le_iff_toNat_le,
      UInt32.reduceToNat, Char.toNat_val] at hc
    omega
  omega

/-- Letters and digits are never escaped. -/
theorem isAlphanum_of_needsEscape (h : needsEscape c = true) : c.isAlphanum = false := by
  rcases Bool.or_eq_true_iff.1 h with h | h
  · exact isAlphanum_of_isBlank h
  · have hall : metacharacters.all (fun d => !d.isAlphanum) = true := by decide
    simpa using List.all_eq_true.1 hall c (List.contains_iff_mem.1 h)

@[simp] theorem parseFrom_open (s : List Char) :
    parseFrom g outer ('(' :: s) = parseFrom {} (g :: outer) s := by
  rw [parseFrom.eq_def]
  rfl

@[simp] theorem parseFrom_close (h : Group) (s : List Char) :
    parseFrom g (h :: outer) (')' :: s) = parseFrom (h.append g.close) outer s := by
  rw [parseFrom.eq_def]
  rfl

@[simp] theorem parseFrom_bar (s : List Char) :
    parseFrom g outer ('|' :: s) = parseFrom g.branch outer s := by
  rw [parseFrom.eq_def]
  rfl

@[simp] theorem parseFrom_gap (s : List Char) :
    parseFrom g outer ('[' :: ' ' :: '\\' :: 't' :: ']' :: '*' :: s) =
      parseFrom (g.append .gap) outer s := by
  rw [parseFrom.eq_def]
  rfl

@[simp] theorem parseFrom_newline (s : List Char) :
    parseFrom g outer ('\\' :: 'n' :: s) = parseFrom (g.append (.char '\n')) outer s := by
  rw [parseFrom.eq_def]
  rfl

theorem parseFrom_escapeChar (c : Char) (s : List Char) :
    parseFrom g outer (escapeChar c ++ s) = parseFrom (g.append (.char c)) outer s := by
  rw [escapeChar]
  split
  · next h =>
    have hc := isAlphanum_of_needsEscape h
    have hn : c ≠ 'n' := by
      rintro rfl
      exact absurd hc (by decide)
    rw [List.cons_append, List.cons_append, List.nil_append, parseFrom.eq_def]
    simp [hc, hn]
  · next h =>
    have hne : ∀ d, needsEscape d = true → c ≠ d := by
      rintro d hd rfl
      exact h hd
    have hop : isOperator c = false := by
      simp [isOperator, hne '*' rfl, hne '+' rfl, hne '?' rfl, hne '.' rfl, hne '{' rfl,
        hne '}' rfl, hne ']' rfl, hne '^' rfl, hne '$' rfl]
    rw [List.cons_append, List.nil_append, parseFrom.eq_def]
    simp [hne '(' rfl, hne ')' rfl, hne '|' rfl, hne '[' rfl, hne '\\' rfl, hop]

theorem parseFrom_escape (t s : List Char) :
    parseFrom g outer (t.flatMap escapeChar ++ s) = parseFrom (g.spell t) outer s := by
  induction t generalizing g with
  | nil => rfl
  | cons c t ih =>
    rw [List.flatMap_cons, List.append_assoc, parseFrom_escapeChar, ih]
    rfl

theorem parseFrom_alternatives (ts : List (List Char)) (s : List Char) :
    parseFrom g outer (['|'].intercalate (ts.map fun t => t.flatMap escapeChar) ++ s) =
      parseFrom (g.spellEach ts) outer s := by
  induction ts generalizing g with
  | nil => rfl
  | cons t ts ih =>
    cases ts with
    | nil =>
      rw [List.map_singleton, List.intercalate_singleton, parseFrom_escape]
      rfl
    | cons t' ts =>
      rw [List.map_cons, List.map_cons, List.intercalate_cons_cons, List.append_assoc,
        List.append_assoc, parseFrom_escape, List.cons_append, parseFrom_bar, List.nil_append]
      exact ih

/-- The pattern of a comment is read as the sign, a gap, one of the aliases and the line break. -/
theorem parse_tagComment (identifiers : List String) :
    parse (tagComment identifiers) = some (.seq (.seq (.seq (.seq .empty (.seq .empty (.char '#')))
      .gap) (Group.spellEach {} (identifiers.map (·.toList))).close) (.char '\n')) := by
  have hliteral : ∀ s, parseFrom {} [{}] ('#' :: s) =
      parseFrom (Group.append {} (.char '#')) [{}] s := by
    intro s
    rw [parseFrom.eq_def]
    rfl
  rw [parse, toList_tagComment]
  simp only [List.cons_append, List.nil_append, parseFrom_open, hliteral, parseFrom_close,
    parseFrom_gap, parseFrom_alternatives, parseFrom_newline]
  rfl

/-- A group that texts are spelled into stands for these texts. -/
theorem denotes_spellEach {ts : List (List Char)} (h : ts ≠ []) :
    (Group.spellEach {} ts).close.Denotes u ↔ u ∈ ts := by
  obtain ⟨t, ts, rfl⟩ := List.exists_cons_of_ne_nil h
  rw [Group.denotes_close_spellEach]
  simp

/-- A comment stands for the texts of the sign, a gap, one of the aliases and a line break. -/
theorem denotes_tagComment {identifiers : List String} (h : identifiers ≠ []) :
    ∃ e, parse (tagComment identifiers) = some e ∧ ∀ u, e.Denotes u ↔
      ∃ a ∈ identifiers, ∃ w : List Char, (∀ c ∈ w, isGap c = true) ∧
        u = '#' :: (w ++ (a.toList ++ ['\n'])) := by
  refine ⟨_, parse_tagComment _, ?_⟩
  intro u
  have hne : identifiers.map (·.toList) ≠ [] := by simpa using h
  simp only [Expression.denotes_seq, Expression.denotes_empty, Expression.denotes_char,
    Expression.denotes_gap, denotes_spellEach hne, List.mem_map]
  constructor
  · rintro ⟨_, _, ⟨_, _, ⟨_, w, ⟨_, _, rfl, ⟨_, _, rfl, rfl, rfl⟩, rfl⟩, hw, rfl⟩,
      ⟨b, hb, rfl⟩, rfl⟩, rfl, rfl⟩
    exact ⟨b, hb, w, hw, by simp⟩
  · rintro ⟨b, hb, w, hw, rfl⟩
    refine ⟨'#' :: (w ++ b.toList), ['\n'], ?_, rfl, by simp⟩
    refine ⟨'#' :: w, b.toList, ?_, ⟨b, hb, rfl⟩, rfl⟩
    exact ⟨['#'], w, ⟨[], ['#'], rfl, ⟨[], ['#'], rfl, rfl, rfl⟩, rfl⟩, hw, rfl⟩

end Pattern
end InjectionGrammar
