import InjectionGrammar.Json

/-! How deep containers nest, in a value and in its text. -/
namespace InjectionGrammar
namespace Json

mutual

/-- The most containers that lie inside each other. -/
def depth : Json → Nat
  | .string _ => 0
  | .array vs => depthOfItems vs + 1
  | .object ms => depthOfMembers ms + 1

def depthOfItems : List Json → Nat
  | [] => 0
  | v :: vs => max (depth v) (depthOfItems vs)

def depthOfMembers : List (String × Json) → Nat
  | [] => 0
  | (_, v) :: ms => max (depth v) (depthOfMembers ms)

end

/-- Whether a place in a text lies in a string, and there behind a backslash. -/
inductive Mode where
  | outside
  | quoted
  | escaped
  deriving DecidableEq, Repr

/-- The containers that are open at a place in a text, and the most that have been open before. -/
structure Scan where
  opened : Nat
  deepest : Nat
  mode : Mode
  deriving DecidableEq, Repr

/-- Goes on by a character. Brackets in strings are no containers. -/
def Scan.next (st : Scan) (c : Char) : Scan :=
  match st.mode with
  | .escaped => { st with mode := .quoted }
  | .quoted =>
    if c = '"' then { st with mode := .outside }
    else if c = '\\' then { st with mode := .escaped }
    else st
  | .outside =>
    if c = '"' then { st with mode := .quoted }
    else if c = '[' ∨ c = '{' then
      ⟨st.opened + 1, max st.deepest (st.opened + 1), .outside⟩
    else if c = ']' ∨ c = '}' then ⟨st.opened - 1, st.deepest, .outside⟩
    else st

def scan (st : Scan) (text : List Char) : Scan :=
  text.foldl Scan.next st

/-- The most containers that are open at once in a text. -/
def nesting (text : String) : Nat :=
  (scan ⟨0, 0, .outside⟩ text.toList).deepest

variable {n d : Nat}

theorem scan_append (st : Scan) (s t : List Char) : scan st (s ++ t) = scan (scan st s) t :=
  List.foldl_append

theorem scan_cons (st : Scan) (c : Char) (t : List Char) :
    scan st (c :: t) = scan (st.next c) t := rfl

@[simp] theorem scan_nil (st : Scan) : scan st [] = st := rfl

theorem next_hexDigit : ∀ m < 16,
    Scan.next ⟨n, d, .quoted⟩ (hexDigit m) = ⟨n, d, .quoted⟩ := by
  intro m hm
  have hne : hexDigit m ≠ '"' ∧ hexDigit m ≠ '\\' := by
    revert m
    decide
  simp [Scan.next, hne]

theorem scan_escapeChar (c : Char) :
    scan ⟨n, d, .quoted⟩ (escapeChar c) = ⟨n, d, .quoted⟩ := by
  unfold escapeChar
  iterate 7
    split
    · rfl
  split
  · next hc =>
    change scan ⟨n, d, .quoted⟩ [hexDigit (c.toNat / 16), hexDigit (c.toNat % 16)] = _
    rw [scan_cons, next_hexDigit _ (by omega), scan_cons, next_hexDigit _ (by omega), scan_nil]
  · next h1 h2 _ _ _ _ _ _ => simp [scan_cons, Scan.next, h1, h2]

theorem scan_flatMap_escapeChar (s : List Char) :
    scan ⟨n, d, .quoted⟩ (s.flatMap escapeChar) = ⟨n, d, .quoted⟩ := by
  induction s with
  | nil => rfl
  | cons c s ih => rw [List.flatMap_cons, scan_append, scan_escapeChar, ih]

theorem scan_quote (s : String) : scan ⟨n, d, .outside⟩ (quote s) = ⟨n, d, .outside⟩ := by
  rw [quote, scan_cons]
  change scan ⟨n, d, .quoted⟩ _ = _
  rw [scan_append, scan_flatMap_escapeChar]
  rfl

theorem scan_newline (level : Nat) :
    scan ⟨n, d, .outside⟩ (newline level) = ⟨n, d, .outside⟩ := by
  rw [newline, scan_cons]
  generalize 4 * level = k
  induction k with
  | zero => rfl
  | succ k ih => exact ih

mutual

/-- The text of a value opens as many containers as the value nests, and closes them all. -/
theorem scan_indented : ∀ (v : Json) (level n d : Nat), n ≤ d →
    scan ⟨n, d, .outside⟩ (indented level v) = ⟨n, max d (n + v.depth), .outside⟩
  | .string s, level, n, d, h => by
    rw [indented, scan_quote, depth]
    simp [Nat.max_eq_left h]
  | .array [], level, n, d, h => by
    simp [indented, scan_cons, Scan.next, depth, depthOfItems]
  | .array (v :: vs), level, n, d, h => by
    have hn : n + 1 ≤ max d (n + 1) := by omega
    rw [indented, scan_cons]
    change scan ⟨n + 1, max d (n + 1), .outside⟩ _ = _
    rw [scan_append, scan_newline, scan_append, scan_indented v _ _ _ hn, scan_append,
      scan_indentedItems vs _ _ _ (by omega), scan_append, scan_newline]
    simp only [scan_cons, scan_nil, depth, depthOfItems]
    change Scan.mk (n + 1 - 1) (max (max (max d (n + 1)) _) _) _ = _
    congr 1
    omega
  | .object [], level, n, d, h => by
    simp [indented, scan_cons, Scan.next, depth, depthOfMembers]
  | .object ((k, v) :: ms), level, n, d, h => by
    have hn : n + 1 ≤ max d (n + 1) := by omega
    rw [indented, scan_cons]
    change scan ⟨n + 1, max d (n + 1), .outside⟩ _ = _
    rw [scan_append, scan_newline, scan_append, scan_quote, scan_cons, scan_cons]
    change scan ⟨n + 1, max d (n + 1), .outside⟩ _ = _
    rw [scan_append, scan_indented v _ _ _ hn, scan_append, scan_indentedMembers ms _ _ _ (by omega),
      scan_append, scan_newline]
    simp only [scan_cons, scan_nil, depth, depthOfMembers]
    change Scan.mk (n + 1 - 1) (max (max (max d (n + 1)) _) _) _ = _
    congr 1
    omega

theorem scan_indentedItems : ∀ (vs : List Json) (level n d : Nat), n ≤ d →
    scan ⟨n, d, .outside⟩ (indentedItems level vs) =
      ⟨n, max d (n + depthOfItems vs), .outside⟩
  | [], level, n, d, h => by
    simp [indentedItems, depthOfItems, Nat.max_eq_left h]
  | v :: vs, level, n, d, h => by
    rw [indentedItems, scan_cons]
    change scan ⟨n, d, .outside⟩ _ = _
    rw [scan_append, scan_newline, scan_append, scan_indented v _ _ _ h,
      scan_indentedItems vs _ _ _ (by omega), depthOfItems]
    congr 1
    omega

theorem scan_indentedMembers : ∀ (ms : List (String × Json)) (level n d : Nat), n ≤ d →
    scan ⟨n, d, .outside⟩ (indentedMembers level ms) =
      ⟨n, max d (n + depthOfMembers ms), .outside⟩
  | [], level, n, d, h => by
    simp [indentedMembers, depthOfMembers, Nat.max_eq_left h]
  | (k, v) :: ms, level, n, d, h => by
    rw [indentedMembers, scan_cons]
    change scan ⟨n, d, .outside⟩ _ = _
    rw [scan_append, scan_newline, scan_append, scan_quote, scan_cons, scan_cons]
    change scan ⟨n, d, .outside⟩ _ = _
    rw [scan_append, scan_indented v _ _ _ h, scan_indentedMembers ms _ _ _ (by omega), depthOfMembers]
    congr 1
    omega

end

/-- A text nests as deep as the value that it shows. -/
theorem nesting_toFile (v : Json) : nesting v.toFile = v.depth := by
  rw [nesting, toFile, String.toList_ofList, scan_append, scan_indented v 0 0 0 (Nat.le_refl 0)]
  simp [scan_cons, Scan.next]

end Json
end InjectionGrammar
