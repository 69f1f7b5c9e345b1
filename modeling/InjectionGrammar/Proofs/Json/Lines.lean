import InjectionGrammar.Json.Encoding
import InjectionGrammar.Proofs.Json.Reading
import InjectionGrammar.Text.Blank

/-!
The layout of an indented text. Without the blanks between its tokens it is the compact text, and
each of its lines is as far to the right as containers are open around it.
-/
namespace InjectionGrammar
namespace Json

namespace Scan

/-- Nothing of a text is read yet. -/
def start : Scan := ⟨0, 0, .outside⟩

/-- Whether a character is a space or a line break between tokens. -/
def Gap (st : Scan) (c : Char) : Prop :=
  st.mode = .outside ∧ (c = ' ' ∨ c = '\n')

instance (st : Scan) (c : Char) : Decidable (st.Gap c) := inferInstanceAs (Decidable (_ ∧ _))

/-- How many containers are open around a line that begins with a character. A bracket that closes
one stands outside of it. -/
def level (st : Scan) (c : Char) : Nat :=
  if c = ']' ∨ c = '}' then st.opened - 1 else st.opened

end Scan

/-- A text without the spaces and line breaks outside of its strings. -/
def squeeze (st : Scan) : List Char → List Char
  | [] => []
  | c :: s => if st.Gap c then squeeze (st.next c) s else c :: squeeze (st.next c) s

/-- The only control characters of a text are line breaks outside of strings. Behind each come four
spaces a container that is open there, and something that is not blank. -/
def LaidOut (st : Scan) (s : List Char) : Prop :=
  ∀ before c after, s = before ++ c :: after → c.toNat < 0x20 →
    c = '\n' ∧ (scan st before).mode = .outside ∧ ∃ x rest,
      after = List.replicate (4 * (scan st before).level x) ' ' ++ x :: rest ∧ isBlank x = false

variable {n d k : Nat} {st : Scan} {s t : List Char}

/-! Squeezing. -/

theorem squeeze_append (st : Scan) (s t : List Char) :
    squeeze st (s ++ t) = squeeze st s ++ squeeze (scan st s) t := by
  induction s generalizing st with
  | nil => rfl
  | cons c s ih =>
    rw [List.cons_append, squeeze, squeeze, ih, scan_cons]
    split <;> rfl

theorem squeeze_cons_of_not {c : Char} (h : ¬st.Gap c) :
    squeeze st (c :: s) = c :: squeeze (st.next c) s :=
  if_neg h

theorem squeeze_cons_quoted (c : Char) (s : List Char) :
    squeeze ⟨n, d, .quoted⟩ (c :: s) = c :: squeeze (Scan.next ⟨n, d, .quoted⟩ c) s :=
  squeeze_cons_of_not (by simp [Scan.Gap])

theorem squeeze_escapeChar (c : Char) :
    squeeze ⟨n, d, .quoted⟩ (escapeChar c) = escapeChar c := by
  unfold escapeChar
  iterate 7
    split
    · rfl
  split
  · next hc =>
    change '\\' :: 'u' :: '0' :: '0' ::
      squeeze ⟨n, d, .quoted⟩ [hexDigit (c.toNat / 16), hexDigit (c.toNat % 16)] = _
    rw [squeeze_cons_quoted, next_hexDigit _ (by omega), squeeze_cons_quoted]
    rfl
  · exact squeeze_cons_quoted c []

theorem squeeze_flatMap_escapeChar (s : List Char) :
    squeeze ⟨n, d, .quoted⟩ (s.flatMap escapeChar) = s.flatMap escapeChar := by
  induction s with
  | nil => rfl
  | cons c s ih => rw [List.flatMap_cons, squeeze_append, squeeze_escapeChar, scan_escapeChar, ih]

theorem squeeze_quote (k : String) : squeeze ⟨n, d, .outside⟩ (quote k) = quote k := by
  rw [quote, squeeze_cons_of_not (by simp [Scan.Gap])]
  change '"' :: squeeze ⟨n, d, .quoted⟩ _ = _
  rw [squeeze_append, squeeze_flatMap_escapeChar, scan_flatMap_escapeChar]
  rfl

theorem squeeze_newline (k : Nat) : squeeze ⟨n, d, .outside⟩ (newline k) = [] := by
  have hspaces : ∀ m, squeeze ⟨n, d, .outside⟩ (List.replicate m ' ') = [] := by
    intro m
    induction m with
    | zero => rfl
    | succ m ih => exact ih
  exact hspaces (4 * k)

theorem squeeze_colon (s : List Char) : squeeze ⟨n, d, .outside⟩ (':' :: ' ' :: s) =
    ':' :: squeeze ⟨n, d, .outside⟩ s := rfl

mutual

/-- The indented text of a value differs from the compact one in nothing but gaps. -/
theorem squeeze_indented : ∀ (v : Json) (level n d : Nat), n ≤ d →
    squeeze ⟨n, d, .outside⟩ (indented level v) = compact v
  | .string s, level, n, d, h => by
    rw [indented, compact, squeeze_quote]
  | .array [], level, n, d, h => by
    rw [indented, compact]
    rfl
  | .array (v :: vs), level, n, d, h => by
    have hn : n + 1 ≤ max d (n + 1) := by omega
    rw [indented, compact, squeeze_cons_of_not (by simp [Scan.Gap])]
    change '[' :: squeeze ⟨n + 1, max d (n + 1), .outside⟩ _ = _
    rw [squeeze_append, squeeze_newline, scan_newline, squeeze_append,
      squeeze_indented v _ _ _ hn, scan_indented v _ _ _ hn, squeeze_append,
      squeeze_indentedItems vs _ _ _ (by omega), scan_indentedItems vs _ _ _ (by omega),
      squeeze_append, squeeze_newline, scan_newline]
    rfl
  | .object [], level, n, d, h => by
    rw [indented, compact]
    rfl
  | .object ((k, v) :: ms), level, n, d, h => by
    have hn : n + 1 ≤ max d (n + 1) := by omega
    rw [indented, compact, squeeze_cons_of_not (by simp [Scan.Gap])]
    change '{' :: squeeze ⟨n + 1, max d (n + 1), .outside⟩ _ = _
    rw [squeeze_append, squeeze_newline, scan_newline, squeeze_append, squeeze_quote, scan_quote]
    rw [squeeze_colon, squeeze_append, squeeze_indented v _ _ _ hn, scan_indented v _ _ _ hn,
      squeeze_append, squeeze_indentedMembers ms _ _ _ (by omega), scan_indentedMembers ms _ _ _ (by omega),
      squeeze_append, squeeze_newline, scan_newline]
    rfl

theorem squeeze_indentedItems : ∀ (vs : List Json) (level n d : Nat), n ≤ d →
    squeeze ⟨n, d, .outside⟩ (indentedItems level vs) = compactItems vs
  | [], level, n, d, h => by
    rw [indentedItems, compactItems]
    rfl
  | v :: vs, level, n, d, h => by
    rw [indentedItems, compactItems, squeeze_cons_of_not (by simp [Scan.Gap])]
    change ',' :: squeeze ⟨n, d, .outside⟩ _ = _
    rw [squeeze_append, squeeze_newline, scan_newline, squeeze_append, squeeze_indented v _ _ _ h,
      scan_indented v _ _ _ h, squeeze_indentedItems vs _ _ _ (by omega)]
    rfl

theorem squeeze_indentedMembers : ∀ (ms : List (String × Json)) (level n d : Nat), n ≤ d →
    squeeze ⟨n, d, .outside⟩ (indentedMembers level ms) = compactMembers ms
  | [], level, n, d, h => by
    rw [indentedMembers, compactMembers]
    rfl
  | (k, v) :: ms, level, n, d, h => by
    rw [indentedMembers, compactMembers, squeeze_cons_of_not (by simp [Scan.Gap])]
    change ',' :: squeeze ⟨n, d, .outside⟩ _ = _
    rw [squeeze_append, squeeze_newline, scan_newline, squeeze_append, squeeze_quote, scan_quote]
    rw [squeeze_colon, squeeze_append, squeeze_indented v _ _ _ h, scan_indented v _ _ _ h,
      squeeze_indentedMembers ms _ _ _ (by omega)]
    rfl

end

/-! Lines. -/

theorem split_append_cons {α : Type} {s t before after : List α} {c : α}
    (h : s ++ t = before ++ c :: after) :
    (∃ x, s = before ++ c :: x ∧ after = x ++ t) ∨ ∃ y, before = s ++ y ∧ t = y ++ c :: after := by
  rcases List.append_eq_append_iff.1 h with ⟨y, hy, ht⟩ | ⟨x, hs, hc⟩
  · exact .inr ⟨y, hy, ht⟩
  · cases x with
    | nil => exact .inr ⟨[], by simpa using hs.symm, by simpa using hc.symm⟩
    | cons c' x =>
      obtain ⟨rfl, rfl⟩ := List.cons.inj hc
      exact .inl ⟨x, hs, rfl⟩

/-- A text in which no control characters occur has no line breaks to speak of. -/
theorem laidOut_of_plain (h : ∀ c ∈ s, ¬c.toNat < 0x20) : LaidOut st s := by
  rintro before c after rfl hc
  exact absurd hc (h c (by simp))

theorem LaidOut.append (hs : LaidOut st s) (ht : LaidOut (scan st s) t) : LaidOut st (s ++ t) := by
  intro before c after heq hc
  rcases split_append_cons heq with ⟨x, hx, rfl⟩ | ⟨y, rfl, hy⟩
  · obtain ⟨hnl, hmode, a, rest, rfl, ha⟩ := hs before c x hx hc
    exact ⟨hnl, hmode, a, rest ++ t, by simp, ha⟩
  · rw [scan_append]
    exact ht y c after hy hc

theorem LaidOut.cons {c : Char} (hc : ¬c.toNat < 0x20) (h : LaidOut (st.next c) s) :
    LaidOut st (c :: s) :=
  LaidOut.append (s := [c]) (laidOut_of_plain (by simpa using hc)) h

/-- A line break fits in front of what stands on the level of its blanks. -/
theorem LaidOut.newline {x : Char} (h : LaidOut ⟨n, d, .outside⟩ (x :: s)) (hx : isBlank x = false)
    (hk : Scan.level ⟨n, d, .outside⟩ x = k) :
    LaidOut ⟨n, d, .outside⟩ (newline k ++ x :: s) := by
  intro before c after heq hc
  rcases split_append_cons heq with ⟨y, hy, rfl⟩ | ⟨y, rfl, hy⟩
  · rw [Json.newline] at hy
    cases before with
    | nil =>
      obtain ⟨rfl, rfl⟩ := List.cons.inj hy
      exact ⟨rfl, rfl, x, s, by rw [← hk]; rfl, hx⟩
    | cons b before =>
      have hmem : c ∈ List.replicate (4 * k) ' ' := by simp [(List.cons.inj hy).2]
      obtain rfl := List.eq_of_mem_replicate hmem
      exact absurd hc (by decide)
  · rw [scan_append, scan_newline]
    exact h y c after hy hc

theorem hexDigit_plain : ∀ m < 16, ¬(hexDigit m).toNat < 0x20 := by
  decide

theorem escapeChar_plain (c : Char) : ∀ x ∈ escapeChar c, ¬x.toNat < 0x20 := by
  unfold escapeChar
  iterate 7
    split
    · simp
  split
  · next hc =>
    have hleft := hexDigit_plain (c.toNat / 16) (by omega)
    have hright := hexDigit_plain (c.toNat % 16) (by omega)
    simpa using ⟨Nat.not_lt.1 hleft, Nat.not_lt.1 hright⟩
  · next hc => simpa using hc

theorem quote_plain (k : String) : ∀ x ∈ quote k, ¬x.toNat < 0x20 := by
  intro x hx
  simp only [quote, List.mem_cons, List.mem_append, List.mem_flatMap, List.not_mem_nil,
    or_false] at hx
  rcases hx with rfl | ⟨c, -, hx⟩ | rfl
  · decide
  · exact escapeChar_plain c x hx
  · decide

/-- What a value begins with is not blank and closes nothing. -/
theorem laidOut_newline_indented {v : Json} (h : LaidOut ⟨n, d, .outside⟩ (indented n v ++ s)) :
    LaidOut ⟨n, d, .outside⟩ (newline n ++ (indented n v ++ s)) := by
  obtain ⟨c, t, hv, hc⟩ := indented_eq_cons n v
  rw [hv, List.cons_append] at h ⊢
  apply h.newline
  · rcases hc with rfl | rfl | rfl <;> rfl
  · rcases hc with rfl | rfl | rfl <;> rfl

theorem laidOut_newline_quote {k : String} (h : LaidOut ⟨n, d, .outside⟩ (quote k ++ s)) :
    LaidOut ⟨n, d, .outside⟩ (newline n ++ (quote k ++ s)) := by
  rw [quote_append] at h ⊢
  exact h.newline rfl rfl

/-- A bracket that closes a container stands one level further out. -/
theorem laidOut_newline_close {c : Char} (hc : c = ']' ∨ c = '}') :
    LaidOut ⟨n + 1, d, .outside⟩ (newline n ++ [c]) := by
  have hplain : LaidOut ⟨n + 1, d, .outside⟩ [c] := by
    apply laidOut_of_plain
    rcases hc with rfl | rfl <;> simp
  apply hplain.newline
  · rcases hc with rfl | rfl <;> rfl
  · simp [Scan.level, hc]

theorem laidOut_quote_append {k : String} (h : LaidOut ⟨n, d, .outside⟩ s) :
    LaidOut ⟨n, d, .outside⟩ (quote k ++ s) := by
  refine (laidOut_of_plain (quote_plain k)).append ?_
  rwa [scan_quote]

mutual

/-- The text of a value is laid out where as many containers are open as its level says. -/
theorem laidOut_indented : ∀ (v : Json) (n d : Nat), n ≤ d →
    LaidOut ⟨n, d, .outside⟩ (indented n v)
  | .string s, n, d, h => by
    rw [indented]
    exact laidOut_of_plain (quote_plain s)
  | .array [], n, d, h => by
    rw [indented]
    exact laidOut_of_plain (by simp)
  | .array (v :: vs), n, d, h => by
    have hn : n + 1 ≤ max d (n + 1) := by omega
    rw [indented]
    refine .cons (by decide) ?_
    change LaidOut ⟨n + 1, max d (n + 1), .outside⟩ _
    apply laidOut_newline_indented
    refine (laidOut_indented v _ _ hn).append ?_
    rw [scan_indented v _ _ _ hn]
    refine (laidOut_indentedItems vs _ _ (by omega)).append ?_
    rw [scan_indentedItems vs _ _ _ (by omega)]
    exact laidOut_newline_close (.inl rfl)
  | .object [], n, d, h => by
    rw [indented]
    exact laidOut_of_plain (by simp)
  | .object ((k, v) :: ms), n, d, h => by
    have hn : n + 1 ≤ max d (n + 1) := by omega
    rw [indented]
    refine .cons (by decide) ?_
    change LaidOut ⟨n + 1, max d (n + 1), .outside⟩ _
    apply laidOut_newline_quote
    apply laidOut_quote_append
    refine .cons (by decide) (.cons (by decide) ?_)
    change LaidOut ⟨n + 1, max d (n + 1), .outside⟩ _
    refine (laidOut_indented v _ _ hn).append ?_
    rw [scan_indented v _ _ _ hn]
    refine (laidOut_indentedMembers ms _ _ (by omega)).append ?_
    rw [scan_indentedMembers ms _ _ _ (by omega)]
    exact laidOut_newline_close (.inr rfl)

theorem laidOut_indentedItems : ∀ (vs : List Json) (n d : Nat), n ≤ d →
    LaidOut ⟨n, d, .outside⟩ (indentedItems n vs)
  | [], n, d, h => by
    rw [indentedItems]
    exact laidOut_of_plain (by simp)
  | v :: vs, n, d, h => by
    rw [indentedItems]
    refine .cons (by decide) ?_
    change LaidOut ⟨n, d, .outside⟩ _
    apply laidOut_newline_indented
    refine (laidOut_indented v _ _ h).append ?_
    rw [scan_indented v _ _ _ h]
    exact laidOut_indentedItems vs _ _ (by omega)

theorem laidOut_indentedMembers : ∀ (ms : List (String × Json)) (n d : Nat), n ≤ d →
    LaidOut ⟨n, d, .outside⟩ (indentedMembers n ms)
  | [], n, d, h => by
    rw [indentedMembers]
    exact laidOut_of_plain (by simp)
  | (k, v) :: ms, n, d, h => by
    rw [indentedMembers]
    refine .cons (by decide) ?_
    change LaidOut ⟨n, d, .outside⟩ _
    apply laidOut_newline_quote
    apply laidOut_quote_append
    refine .cons (by decide) (.cons (by decide) ?_)
    change LaidOut ⟨n, d, .outside⟩ _
    refine (laidOut_indented v _ _ h).append ?_
    rw [scan_indented v _ _ _ h]
    exact laidOut_indentedMembers ms _ _ (by omega)

end

/-- A value ends in a quote or a bracket. -/
theorem indented_eq_concat (level : Nat) (v : Json) : ∃ front c, indented level v = front ++ [c] ∧
    c ≠ '\n' := by
  rcases v with s | (_ | ⟨v, vs⟩) | (_ | ⟨⟨k, v⟩, ms⟩)
  · exact ⟨'"' :: s.toList.flatMap escapeChar, '"', by rw [indented]; rfl, by decide⟩
  · exact ⟨['['], ']', by rw [indented]; rfl, by decide⟩
  · refine ⟨'[' :: (newline (level + 1) ++ (indented (level + 1) v ++
      (indentedItems (level + 1) vs ++ newline level))), ']', ?_, by decide⟩
    simp [indented]
  · exact ⟨['{'], '}', by rw [indented]; rfl, by decide⟩
  · refine ⟨'{' :: (newline (level + 1) ++ (quote k ++ ':' :: ' ' :: (indented (level + 1) v ++
      (indentedMembers (level + 1) ms ++ newline level)))), '}', ?_, by decide⟩
    simp [indented]

/-- A line break between tokens opens and closes nothing. -/
theorem scan_concat_newline (h : (scan st s).mode = .outside) :
    scan st (s ++ ['\n']) = scan st s := by
  rw [scan_append, scan_cons, scan_nil]
  rcases hst : scan st s with ⟨n, d, mode⟩
  obtain rfl : mode = .outside := by simpa [hst] using h
  rfl

/-- A line goes on for longer than its indentation. -/
theorem exists_line {x : Char} {line after rest : List Char} (hx : isBlank x = false)
    (h : line ++ '\n' :: after = List.replicate k ' ' ++ x :: rest) :
    ∃ rest', line = List.replicate k ' ' ++ x :: rest' := by
  rcases split_append_cons h with ⟨rest', hrest, -⟩ | ⟨y, hy, hrest⟩
  · exact ⟨rest', hrest⟩
  · cases y with
    | nil =>
      obtain rfl : '\n' = x := (List.cons.inj hrest).1
      exact absurd hx (by decide)
    | cons c y =>
      obtain rfl : '\n' = c := (List.cons.inj hrest).1
      have hmem : '\n' ∈ List.replicate k ' ' := by simp [hy]
      exact absurd (List.eq_of_mem_replicate hmem) (by decide)

/-- Each line of a text that is laid out begins with the indentation of its level. -/
theorem LaidOut.line {x : Char} {before line after : List Char}
    (h : LaidOut .start (x :: s)) (hx : isBlank x = false)
    (heq : x :: s ++ ['\n'] = before ++ (line ++ '\n' :: after))
    (hbefore : before = [] ∨ ∃ b, before = b ++ ['\n']) :
    ∃ y rest, line = List.replicate (4 * (scan .start before).level y) ' ' ++ y :: rest ∧
      isBlank y = false := by
  rcases hbefore with rfl | ⟨b, rfl⟩
  · obtain ⟨rest, hrest⟩ := exists_line (k := 0) hx heq.symm
    refine ⟨x, rest, ?_, hx⟩
    rw [hrest, scan_nil]
    simp [Scan.level, Scan.start]
  · rw [List.append_assoc, List.singleton_append] at heq
    rcases split_append_cons heq with ⟨z, hz, heq⟩ | ⟨y, -, hy⟩
    · obtain ⟨-, hmode, y, rest, rfl, hy⟩ := h b '\n' z hz (by decide)
      rw [List.append_assoc] at heq
      obtain ⟨rest', hrest⟩ := exists_line hy heq
      exact ⟨y, rest', by rw [scan_concat_newline hmode]; exact hrest, hy⟩
    · -- behind the line break at the end there is no line
      have hlen := congrArg List.length hy
      simp only [List.length_append, List.length_cons, List.length_nil] at hlen
      omega

end Json

namespace Grammar
open Json

/-- Without the blanks outside of strings the text of a grammar is its compact text. Its lines are
indented by four spaces for each container that is open around them; no other control characters
occur than the breaks between lines, and just one such break is at the end. -/
theorem toText_is_laid_out (g : Grammar) :
    String.ofList (squeeze .start g.toText.toList) = g.toJson.toCompact ∧
    (∀ before line after, g.toText.toList = before ++ (line ++ '\n' :: after) →
      (before = [] ∨ ∃ b, before = b ++ ['\n']) →
      ∃ x rest, line = List.replicate (4 * (scan .start before).level x) ' ' ++ x :: rest ∧
        isBlank x = false) ∧
    (∀ before c after, g.toText.toList = before ++ c :: after → c.toNat < 0x20 →
      c = '\n' ∧ (scan .start before).mode = .outside) ∧
    ∃ front x, g.toText.toList = front ++ [x, '\n'] ∧ x ≠ '\n' := by
  have htext : g.toText.toList = indented 0 g.toJson ++ ['\n'] := String.toList_ofList
  have hlaid : LaidOut .start (indented 0 g.toJson) := laidOut_indented g.toJson 0 0 (Nat.le_refl 0)
  have hscan : scan .start (indented 0 g.toJson) = ⟨0, max 0 (0 + g.toJson.depth), .outside⟩ :=
    scan_indented g.toJson 0 0 0 (Nat.le_refl 0)
  rw [htext]
  refine ⟨?_, ?_, ?_, ?_⟩
  · have hgap : squeeze (scan .start (indented 0 g.toJson)) ['\n'] = [] := by
      rw [hscan]
      rfl
    rw [squeeze_append, hgap, List.append_nil]
    exact congrArg String.ofList (squeeze_indented g.toJson 0 0 0 (Nat.le_refl 0))
  · intro before line after heq hbefore
    obtain ⟨c, s, hs, hc⟩ := indented_eq_cons 0 g.toJson
    rw [hs] at hlaid heq
    refine hlaid.line ?_ heq hbefore
    rcases hc with rfl | rfl | rfl <;> rfl
  · intro before c after heq hc
    rcases split_append_cons heq with ⟨y, hy, -⟩ | ⟨y, rfl, hy⟩
    · obtain ⟨hnl, hmode, -⟩ := hlaid before c y hy hc
      exact ⟨hnl, hmode⟩
    · obtain ⟨rfl, rfl⟩ : y = [] ∧ c = '\n' := by
        cases y with
        | nil => exact ⟨rfl, (List.cons.inj hy).1.symm⟩
        | cons a y => simp at hy
      rw [List.append_nil, hscan]
      exact ⟨rfl, rfl⟩
  · obtain ⟨front, x, hfront, hx⟩ := indented_eq_concat 0 g.toJson
    exact ⟨front, x, by rw [hfront]; simp, hx⟩

/-- A grammar with quotes, brackets and a line break in a string, and the third line of its text. -/
theorem toText_is_laid_out_of_brackets :
    let g : Grammar := ⟨["]\n\"["], "", [], "", .empty⟩
    let before := "\x7b\n    \"fileTypes\": [\n".toList
    let line := "        \"]\\n\\\"[\"".toList
    before ++ line ++ ['\n'] <+: g.toText.toList ∧ (scan .start before).opened = 2 ∧
    (∃ x rest, line = List.replicate (4 * (scan .start before).level x) ' ' ++ x :: rest ∧
      isBlank x = false) ∧
    g.toJson.toCompact =
      "\x7b\"fileTypes\":[\"]\\n\\\"[\"],\"injectionSelector\":\"\",\"patterns\":[]," ++
      "\"scopeName\":\"\",\"repository\":\x7b\x7d\x7d" ∧
    String.ofList (squeeze .start g.toText.toList) = g.toJson.toCompact := by
  intro g before line
  have hprefix : before ++ line ++ ['\n'] <+: g.toText.toList := by
    rw [toText, toFile, String.toList_ofList]
    decide +kernel
  obtain ⟨after, hafter⟩ := hprefix
  obtain ⟨hcompact, hlines, -, -⟩ := toText_is_laid_out g
  have hline := hlines before line after (by rw [← hafter]; simp)
    (.inr ⟨"\x7b\n    \"fileTypes\": [".toList, by decide +kernel⟩)
  exact ⟨⟨after, hafter⟩, by decide +kernel, hline, by decide +kernel, hcompact⟩

end Grammar
end InjectionGrammar
