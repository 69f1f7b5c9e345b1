import InjectionGrammar.Json.Reader
import InjectionGrammar.Proofs.Json.Depth
import InjectionGrammar.Proofs.Json.Scalar
import Mathlib.Data.List.Forall2

/-! Indented values are read back, as deep as containers may nest. -/
namespace InjectionGrammar
namespace Json
variable {α β κ ν σ : Type} {n fuel : Nat} {v : Json} {vs : List Json}
  {ms : List (String × Json)} {s t rest : List Char} {key : String}

/-- A reader takes the indented text of a value, behind any blanks, for `a`, unless more containers
lie inside each other in it than the number of levels that are left. -/
def Decodes (read : Reader α) (n : Nat) (v : Json) (a : α) : Prop :=
  ∀ (level : Nat) (s rest : List Char), skipSpace s = indented level v ++ rest →
    Except.YieldsIff (v.depth ≤ n) (read s) (a, rest)

/-- A reader takes the text of a key, from behind its quote, for `k`. -/
def DecodesKey (read : Reader κ) (key : String) (k : κ) : Prop :=
  ∀ rest, read (key.toList.flatMap escapeChar ++ '"' :: rest) = .ok (k, rest)

theorem skipSpace_cons {c : Char} (h : isSpace c = true) (s : List Char) :
    skipSpace (c :: s) = skipSpace s := by
  rw [skipSpace, List.dropWhile_cons_of_pos h, skipSpace]

theorem skipSpace_of_not {c : Char} (h : isSpace c = false) (s : List Char) :
    skipSpace (c :: s) = c :: s := by
  rw [skipSpace, List.dropWhile_cons_of_neg (by simp [h])]

theorem skipSpace_newline (level : Nat) (s : List Char) :
    skipSpace (newline level ++ s) = skipSpace s := by
  rw [newline, List.cons_append, skipSpace_cons (by decide)]
  generalize 4 * level = k
  induction k with
  | zero => rfl
  | succ k ih =>
    rw [List.replicate_succ, List.cons_append, skipSpace_cons (by decide), ih]

/-- The first character of a value tells what it is. -/
theorem indented_eq_cons (level : Nat) (v : Json) : ∃ c t, indented level v = c :: t ∧
    (c = '"' ∨ c = '[' ∨ c = '{') := by
  rcases v with s | _ | _
  · exact ⟨_, _, by rw [indented, quote], .inl rfl⟩
  · rename_i vs
    cases vs with
    | nil => exact ⟨_, _, by rw [indented], .inr (.inl rfl)⟩
    | cons v vs => exact ⟨_, _, by rw [indented], .inr (.inl rfl)⟩
  · rename_i ms
    rcases ms with _ | ⟨⟨k, v⟩, ms⟩
    · exact ⟨_, _, by rw [indented], .inr (.inr rfl)⟩
    · exact ⟨_, _, by rw [indented], .inr (.inr rfl)⟩

theorem skipSpace_indented (level : Nat) (v : Json) (rest : List Char) :
    skipSpace (indented level v ++ rest) = indented level v ++ rest := by
  obtain ⟨c, t, h, hc⟩ := indented_eq_cons level v
  rw [h, List.cons_append]
  apply skipSpace_of_not
  rcases hc with rfl | rfl | rfl <;> rfl

theorem skipSpace_blank_indented (level : Nat) (v : Json) (rest : List Char) :
    skipSpace (' ' :: (indented level v ++ rest)) = indented level v ++ rest := by
  rw [skipSpace_cons (by decide), skipSpace_indented]

theorem Decodes.map {read : Reader α} {a : α} (h : Decodes read n v a) (f : α → β) :
    Decodes (read.map f) n v (f a) := by
  intro level s rest hs
  exact (h level s rest hs).map _

theorem decodes_readString (n : Nat) (s : String) : Decodes readString n (.string s) s := by
  intro level t rest ht
  apply Except.YieldsIff.of_ok (Nat.zero_le n)
  rw [indented, quote_append] at ht
  rw [readString, ht]
  exact readQuoted_escaped s rest

theorem decodes_readOptional (n : Nat) (s : String) :
    Decodes readOptional n (.string s) (some s) := by
  intro level t rest ht
  apply Except.YieldsIff.of_ok (Nat.zero_le n)
  have hread : readString ('"' :: (s.toList.flatMap escapeChar ++ '"' :: rest)) =
      .ok (s, rest) := readQuoted_escaped s rest
  rw [indented, quote_append] at ht
  rw [readOptional, ht]
  change Reader.map some readString _ = _
  rw [Reader.map, hread]
  rfl

theorem decodesKey_readQuoted (s : String) : DecodesKey readQuoted s s :=
  readQuoted_escaped s

/-! Lists. -/

theorem nextItem_later (level : Nat) (v : Json) (t : List Char) :
    nextItem false (',' :: (newline level ++ (indented level v ++ t))) =
      .ok (.item (indented level v ++ t)) := by
  obtain ⟨c, u, h, hc⟩ := indented_eq_cons level v
  have hspace := skipSpace_indented level v t
  rw [nextItem, skipSpace_of_not (by decide)]
  simp only [skipSpace_newline, hspace]
  rw [h, List.cons_append]
  rcases hc with rfl | rfl | rfl <;> rfl

theorem nextItem_first (level : Nat) (v : Json) (t : List Char) :
    nextItem true (newline level ++ (indented level v ++ t)) =
      .ok (.item (indented level v ++ t)) := by
  obtain ⟨c, u, h, hc⟩ := indented_eq_cons level v
  rw [nextItem, skipSpace_newline, skipSpace_indented, h, List.cons_append]
  rcases hc with rfl | rfl | rfl <;> rfl

theorem nextItem_done (first : Bool) (level : Nat) (t : List Char) :
    nextItem first (newline level ++ ']' :: t) = .ok (.done t) := by
  rw [nextItem, skipSpace_newline, skipSpace_of_not (by decide)]
  rfl

theorem length_le_indentedItems (level : Nat) (vs : List Json) :
    vs.length ≤ (indentedItems level vs).length := by
  induction vs with
  | nil => exact Nat.zero_le _
  | cons v vs ih =>
    rw [indentedItems, List.length_cons, List.length_cons, List.length_append, List.length_append]
    omega

section Lists
variable {item : Reader α} {a : α} {as : List α}

theorem readItems_step {first : Bool} {level : Nat} {p : Prop}
    (hnext : nextItem first s = .ok (.item (indented level v ++ t)))
    (hv : Decodes item n v a)
    (hvs : Except.YieldsIff p (readItems item fuel false t) (as, rest)) :
    Except.YieldsIff (v.depth ≤ n ∧ p) (readItems item (fuel + 1) first s) (a :: as, rest) := by
  rw [readItems, hnext, Except.ok_bind]
  refine (hv level _ t (skipSpace_indented level v t)).bind ?_
  exact hvs.bind_ok rfl

theorem readItems_indented (level outer : Nat) (h : List.Forall₂ (Decodes item n) vs as)
    (hfuel : vs.length < fuel) :
    Except.YieldsIff (depthOfItems vs ≤ n)
      (readItems item fuel false (indentedItems level vs ++ (newline outer ++ ']' :: rest)))
      (as, rest) := by
  induction h generalizing fuel with
  | nil =>
    obtain ⟨fuel, rfl⟩ := Nat.exists_eq_succ_of_ne_zero (Nat.ne_of_gt hfuel)
    apply Except.YieldsIff.of_ok (Nat.zero_le n)
    rw [readItems, indentedItems, List.nil_append, nextItem_done]
    rfl
  | @cons v a vs as hv hvs ih =>
    obtain ⟨fuel, rfl⟩ := Nat.exists_eq_succ_of_ne_zero (Nat.ne_of_gt (Nat.zero_lt_of_lt hfuel))
    have hrest := ih (Nat.lt_of_succ_lt_succ hfuel)
    rw [indentedItems, List.cons_append, List.append_assoc, List.append_assoc]
    refine (readItems_step (nextItem_later level v _) hv hrest).congr ?_
    rw [depthOfItems, Nat.max_le]

/-- A list is read if its items are, one level further down. -/
theorem decodes_readList (h : 0 < n → List.Forall₂ (Decodes item (n - 1)) vs as) :
    Decodes (readList n item) n (.array vs) as := by
  intro level s rest hs
  cases n with
  | zero =>
    refine .of_error (by simp [depth]) (e := ⟨.tooDeep, skipSpace s, 1⟩) ?_
    cases vs <;> rw [readList, hs, indented] <;> rfl
  | succ n =>
    have hlist := h (Nat.succ_pos n)
    rw [Nat.add_sub_cancel] at hlist
    cases hlist with
    | nil =>
      refine .of_ok (by simp [depth, depthOfItems]) ?_
      rw [readList, hs, indented]
      rfl
    | @cons v a vs as hv hvs =>
      rw [indented] at hs
      simp only [List.cons_append, List.append_assoc, List.nil_append] at hs
      have hlen := length_le_indentedItems (level + 1) vs
      rw [readList, hs]
      change Except.YieldsIff _ (readItems item (_ + 1) true _) _
      refine (readItems_step (nextItem_first (level + 1) v _) hv
        (readItems_indented (level + 1) level hvs ?_)).congr ?_
      · simp only [List.length_append, List.length_cons]
        omega
      · rw [depth, depthOfItems]
        omega

theorem decodes_readList_map {write : α → Json} (h : ∀ a, Decodes item (n - 1) (write a) a)
    (as : List α) : Decodes (readList n item) n (.array (as.map write)) as := by
  apply decodes_readList
  intro _
  rw [List.forall₂_map_left_iff, List.forall₂_same]
  intro a _
  exact h a

end Lists

/-! Objects. -/

theorem nextMember_later (level : Nat) (key : String) (t : List Char) :
    nextMember false (',' :: (newline level ++ (quote key ++ t))) =
      .ok (.item (key.toList.flatMap escapeChar ++ '"' :: t)) := by
  rw [nextMember, skipSpace_of_not (by decide), quote_append]
  simp only [skipSpace_newline, skipSpace_of_not (show isSpace '"' = false from rfl)]
  rfl

theorem nextMember_first (level : Nat) (key : String) (t : List Char) :
    nextMember true (newline level ++ (quote key ++ t)) =
      .ok (.item (key.toList.flatMap escapeChar ++ '"' :: t)) := by
  rw [nextMember, skipSpace_newline, quote_append, skipSpace_of_not (by decide)]
  rfl

theorem nextMember_done (first : Bool) (level : Nat) (t : List Char) :
    nextMember first (newline level ++ '\x7d' :: t) = .ok (.done t) := by
  rw [nextMember, skipSpace_newline, skipSpace_of_not (by decide)]
  rfl

theorem colon_cons (s : List Char) : colon (':' :: s) = .ok s := by
  rw [colon, skipSpace_of_not (by decide)]
  rfl

theorem length_le_indentedMembers (level : Nat) (ms : List (String × Json)) :
    ms.length ≤ (indentedMembers level ms).length := by
  induction ms with
  | nil => exact Nat.zero_le _
  | cons m ms ih =>
    rw [indentedMembers, List.length_cons, List.length_cons, List.length_append,
      List.length_append, List.length_cons, List.length_cons, List.length_append]
    omega

section Pairs
variable {readKey : Reader κ} {read : Reader ν} {es : List (κ × ν)}

theorem readEntries_step {first : Bool} {level : Nat} {p : Prop} {k : κ} {a : ν}
    (hnext : nextMember first s = .ok (.item (key.toList.flatMap escapeChar ++
      '"' :: ':' :: ' ' :: (indented level v ++ t))))
    (hk : DecodesKey readKey key k) (hv : Decodes read n v a)
    (hms : Except.YieldsIff p (readEntries readKey read fuel false t) (es, rest)) :
    Except.YieldsIff (v.depth ≤ n ∧ p) (readEntries readKey read (fuel + 1) first s)
      ((k, a) :: es, rest) := by
  have hkey := hk (':' :: ' ' :: (indented level v ++ t))
  rw [readEntries, hnext, Except.ok_bind]
  simp only [hkey, Except.ok_bind, colon_cons]
  refine (hv level _ t (skipSpace_blank_indented level v t)).bind ?_
  exact hms.bind_ok rfl

theorem readEntries_indented (level outer : Nat)
    (h : List.Forall₂ (fun m e => DecodesKey readKey m.1 e.1 ∧ Decodes read n m.2 e.2) ms es)
    (hfuel : ms.length < fuel) :
    Except.YieldsIff (depthOfMembers ms ≤ n)
      (readEntries readKey read fuel false
        (indentedMembers level ms ++ (newline outer ++ '\x7d' :: rest))) (es, rest) := by
  induction h generalizing fuel with
  | nil =>
    obtain ⟨fuel, rfl⟩ := Nat.exists_eq_succ_of_ne_zero (Nat.ne_of_gt hfuel)
    apply Except.YieldsIff.of_ok (Nat.zero_le n)
    rw [readEntries, indentedMembers, List.nil_append, nextMember_done]
    rfl
  | @cons m e ms es hm hms ih =>
    obtain ⟨fuel, rfl⟩ := Nat.exists_eq_succ_of_ne_zero (Nat.ne_of_gt (Nat.zero_lt_of_lt hfuel))
    have hrest := ih (Nat.lt_of_succ_lt_succ hfuel)
    rw [indentedMembers]
    simp only [List.cons_append, List.append_assoc]
    refine (readEntries_step (nextMember_later level m.1 _) hm.1 hm.2 hrest).congr ?_
    rw [depthOfMembers, Nat.max_le]

/-- An object is read as its members if their values are read one level further down. -/
theorem decodes_readPairs (h : 0 < n → List.Forall₂
      (fun m e => DecodesKey readKey m.1 e.1 ∧ Decodes read (n - 1) m.2 e.2) ms es) :
    Decodes (readPairs n readKey read) n (.object ms) es := by
  intro level s rest hs
  cases n with
  | zero =>
    refine .of_error (by simp [depth]) (e := ⟨.tooDeep, skipSpace s, 1⟩) ?_
    cases ms <;> rw [readPairs, hs, indented] <;> rfl
  | succ n =>
    have hlist := h (Nat.succ_pos n)
    rw [Nat.add_sub_cancel] at hlist
    cases hlist with
    | nil =>
      refine .of_ok (by simp [depth, depthOfMembers]) ?_
      rw [readPairs, hs, indented]
      rfl
    | @cons m e ms es hm hms =>
      rw [indented] at hs
      simp only [List.cons_append, List.append_assoc, List.nil_append] at hs
      have hlen := length_le_indentedMembers (level + 1) ms
      rw [readPairs, hs]
      change Except.YieldsIff _ (readEntries readKey read (_ + 1) true _) _
      refine (readEntries_step (nextMember_first (level + 1) m.1 _) hm.1 hm.2
        (readEntries_indented (level + 1) level hms ?_)).congr ?_
      · simp only [List.length_append, List.length_cons]
        omega
      · rw [depth, depthOfMembers]
        omega

end Pairs

end Json
end InjectionGrammar
