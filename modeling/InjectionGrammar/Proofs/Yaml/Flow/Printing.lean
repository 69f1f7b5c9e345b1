import InjectionGrammar.Proofs.Yaml.Flow

/-! Values in flow style as texts of printable ASCII characters. -/
namespace InjectionGrammar
namespace Yaml
variable {first : Bool} {vs : List Tree} {ms : List (String × Tree)}

def isPrintableAscii (c : Char) : Bool :=
  0x20 ≤ c.toNat && c.toNat ≤ 0x7e

/-- A character between quotes; where it cannot stand for itself its code stands for it. -/
def asciiChar (c : Char) : List Char :=
  if isPrintableAscii c && c != '"' && c != '\\' then [c]
  else '\\' :: 'U' :: Scalar.hexDigits 8 c.toNat

def asciiText (text : String) : List Char :=
  text.toList.flatMap asciiChar

/-! Each function puts a text before what follows it. -/

mutual

def Tree.print : Tree → List Char → List Char
  | .scalar text, rest => '"' :: (asciiText text ++ '"' :: rest)
  | .sequence vs, rest => '[' :: printItems true vs rest
  | .mapping ms, rest => '\x7b' :: printMembers true ms rest

def printItems (first : Bool) : List Tree → List Char → List Char
  | [], rest => ']' :: rest
  | v :: vs, rest => following first (v.print (printItems false vs rest))

def printMembers (first : Bool) : List (String × Tree) → List Char → List Char
  | [], rest => '\x7d' :: rest
  | (key, v) :: ms, rest => following first ('"' :: (asciiText key ++ '"' :: ':' :: ' ' ::
      v.print (printMembers false ms rest)))

end

theorem spells_asciiChar (c : Char) : Spells c (asciiChar c) := by
  unfold asciiChar
  split
  · next h =>
    simp only [isPrintableAscii, Bool.and_eq_true, decide_eq_true_eq, bne_iff_ne] at h
    have hbreak : isBreak c = false := by
      rw [← Bool.not_eq_true]
      intro hb
      simp only [isBreak, isSeparator, Bool.or_eq_true, decide_eq_true_eq] at hb
      rcases hb with rfl | rfl | rfl <;> exact absurd h (by decide)
    exact .plain (by simp [Scalar.isPrintable, h.1.1]) hbreak h.1.2 h.2
  · exact spells_hexDigits rfl c.val.toNat_lt_size

theorem isBody_asciiText (text : String) : IsBody text.toList (asciiText text) :=
  isBody_flatMap spells_asciiChar text.toList

theorem writes_scalar (text : String) (rest : List Char) :
    Writes (.scalar text) ((Tree.scalar text).print rest) rest :=
  ⟨asciiText text, isBody_asciiText text, rfl⟩

theorem writesItems_print (h : ∀ v ∈ vs, ∀ rest, Writes v (v.print rest) rest)
    (rest : List Char) : WritesItems first vs (printItems first vs rest) rest := by
  induction vs generalizing first with
  | nil => rfl
  | cons v vs ih =>
    exact ⟨_, _, rfl, h v List.mem_cons_self _,
      ih fun x hx => h x (List.mem_cons_of_mem v hx)⟩

/-- Keys that are short enough to be keys. -/
theorem writesMembers_print
    (h : ∀ m ∈ ms, byteLength (asciiText m.1) ≤ 1000 ∧ ∀ rest, Writes m.2 (m.2.print rest) rest)
    (rest : List Char) : WritesMembers first ms (printMembers first ms rest) rest := by
  induction ms generalizing first with
  | nil => rfl
  | cons m ms ih =>
    obtain ⟨key, v⟩ := m
    obtain ⟨hkey, hv⟩ := h (key, v) List.mem_cons_self
    exact ⟨_, _, _, rfl, ⟨_, isBody_asciiText key, hkey, rfl⟩, hv _,
      ih fun x hx => h x (List.mem_cons_of_mem _ hx)⟩

theorem writes_sequence (h : ∀ v ∈ vs, ∀ rest, Writes v (v.print rest) rest) (rest : List Char) :
    Writes (.sequence vs) ((Tree.sequence vs).print rest) rest :=
  ⟨_, rfl, writesItems_print h rest⟩

theorem writes_mapping
    (h : ∀ m ∈ ms, byteLength (asciiText m.1) ≤ 1000 ∧ ∀ rest, Writes m.2 (m.2.print rest) rest)
    (rest : List Char) : Writes (.mapping ms) ((Tree.mapping ms).print rest) rest :=
  ⟨_, rfl, writesMembers_print h rest⟩

theorem isPrintableAscii_upperHexDigit {n : Nat} (h : n < 16) :
    isPrintableAscii (Scalar.upperHexDigit n) = true := by
  have hall : ∀ n < 16, isPrintableAscii (Scalar.upperHexDigit n) = true := by decide
  exact hall n h

theorem isPrintableAscii_hexDigits (count n : Nat) :
    ∀ c ∈ Scalar.hexDigits count n, isPrintableAscii c = true := by
  induction count generalizing n with
  | zero => nofun
  | succ count ih =>
    intro c hc
    rcases List.mem_append.1 hc with hc | hc
    · exact ih (n / 16) c hc
    · obtain rfl := List.mem_singleton.1 hc
      exact isPrintableAscii_upperHexDigit (Nat.mod_lt n (by decide))

theorem isPrintableAscii_asciiText (text : String) :
    ∀ c ∈ asciiText text, isPrintableAscii c = true := by
  intro c hc
  obtain ⟨x, -, hc⟩ := List.mem_flatMap.1 hc
  unfold asciiChar at hc
  split at hc
  · next h =>
    obtain rfl := List.mem_singleton.1 hc
    simp only [Bool.and_eq_true] at h
    exact h.1.1
  · rcases List.mem_cons.1 hc with rfl | hc
    · decide
    · rcases List.mem_cons.1 hc with rfl | hc
      · decide
      · exact isPrintableAscii_hexDigits 8 x.toNat c hc

theorem isPrintableAscii_following {s : List Char} (h : ∀ c ∈ s, isPrintableAscii c = true) :
    ∀ c ∈ following first s, isPrintableAscii c = true := by
  cases first with
  | true => exact h
  | false =>
    simp only [following, Bool.false_eq_true, if_false, List.forall_mem_cons]
    exact ⟨by decide, by decide, h⟩

theorem isPrintableAscii_quotes (text : String) {rest : List Char}
    (hrest : ∀ c ∈ rest, isPrintableAscii c = true) :
    ∀ c ∈ '"' :: (asciiText text ++ '"' :: rest), isPrintableAscii c = true := by
  simp only [List.forall_mem_cons, List.forall_mem_append]
  exact ⟨by decide, isPrintableAscii_asciiText text, by decide, hrest⟩

mutual

theorem Tree.isPrintableAscii_print (v : Tree) {rest : List Char}
    (hrest : ∀ c ∈ rest, isPrintableAscii c = true) :
    ∀ c ∈ v.print rest, isPrintableAscii c = true := by
  cases v with
  | scalar text => exact isPrintableAscii_quotes text hrest
  | sequence vs => exact List.forall_mem_cons.2 ⟨by decide, isPrintableAscii_printItems vs hrest⟩
  | mapping ms => exact List.forall_mem_cons.2 ⟨by decide, isPrintableAscii_printMembers ms hrest⟩

theorem isPrintableAscii_printItems (vs : List Tree) {first : Bool} {rest : List Char}
    (hrest : ∀ c ∈ rest, isPrintableAscii c = true) :
    ∀ c ∈ printItems first vs rest, isPrintableAscii c = true := by
  cases vs with
  | nil => exact List.forall_mem_cons.2 ⟨by decide, hrest⟩
  | cons v vs =>
    exact isPrintableAscii_following
      (v.isPrintableAscii_print (isPrintableAscii_printItems vs hrest))

theorem isPrintableAscii_printMembers (ms : List (String × Tree)) {first : Bool}
    {rest : List Char} (hrest : ∀ c ∈ rest, isPrintableAscii c = true) :
    ∀ c ∈ printMembers first ms rest, isPrintableAscii c = true := by
  cases ms with
  | nil => exact List.forall_mem_cons.2 ⟨by decide, hrest⟩
  | cons m ms =>
    obtain ⟨key, v⟩ := m
    refine isPrintableAscii_following (isPrintableAscii_quotes key ?_)
    simp only [List.forall_mem_cons]
    exact ⟨by decide, by decide, v.isPrintableAscii_print (isPrintableAscii_printMembers ms hrest)⟩

end

end Yaml
end InjectionGrammar
