import InjectionGrammar.Proofs.Json.Reading

/-! The texts that are JSON, by the values that they spell. Blanks may stand before every token; all
else is kept in the value as it is written, so that two values are told apart by more than what they
mean. -/
namespace InjectionGrammar
namespace Json

/-- A value as it is written. -/
inductive Tree where
  | word (w : List Char)
  | string (body : List Char)
  | array (items : List Tree)
  | object (members : List (List Char × Tree))

/-! Scalars. -/

def IsWord (w : List Char) : Prop :=
  w = ['n', 'u', 'l', 'l'] ∨ w = ['t', 'r', 'u', 'e'] ∨ w = ['f', 'a', 'l', 's', 'e']

def IsDigits (s : List Char) : Prop :=
  s ≠ [] ∧ ∀ c ∈ s, c.isDigit = true

def IsFraction (s : List Char) : Prop :=
  s = [] ∨ ∃ ds, IsDigits ds ∧ s = '.' :: ds

def IsPower (s : List Char) : Prop :=
  s = [] ∨ ∃ mark sign ds, isExponentMark mark = true ∧ (sign = [] ∨ sign = ['+'] ∨ sign = ['-']) ∧
    IsDigits ds ∧ s = mark :: (sign ++ ds)

/-- Digits behind a sign or none, without a zero before others, with a fraction and an exponent or
without them. -/
def IsNumber (w : List Char) : Prop :=
  ∃ sign whole fraction power, w = sign ++ (whole ++ (fraction ++ power)) ∧
    (sign = [] ∨ sign = ['-']) ∧ IsDigits whole ∧ (whole.head? = some '0' → whole = ['0']) ∧
    IsFraction fraction ∧ IsPower power

def IsLiteral (w : List Char) : Prop :=
  IsWord w ∨ IsNumber w

/-- What may stand between quotes. The halves of a surrogate pair may stand alone. -/
inductive IsBody : List Char → Prop where
  | nil : IsBody []
  | plain {c : Char} {s : List Char} (hquote : c ≠ '"') (hslash : c ≠ '\\')
      (hcontrol : ¬c.toNat < 0x20) (h : IsBody s) : IsBody (c :: s)
  | short {c x : Char} {s : List Char} (hx : unescape? c = some x) (h : IsBody s) :
      IsBody ('\\' :: c :: s)
  | code {a b c d : Char} {n : Nat} {s : List Char} (hn : hexValue4? a b c d = some n)
      (h : IsBody s) : IsBody ('\\' :: 'u' :: a :: b :: c :: d :: s)

/-! Texts. Each relation leads from a text to what is left of it. -/

def Blank (s : List Char) : Prop :=
  ∀ c ∈ s, isSpace c = true

/-- A character behind blanks. -/
def Token (c : Char) (s rest : List Char) : Prop :=
  ∃ b, Blank b ∧ s = b ++ c :: rest

/-- What comes before an item: nothing before the first one, a comma before the others. -/
def Follows (first : Bool) (s rest : List Char) : Prop :=
  if first then s = rest else Token ',' s rest

mutual

def Spells : Tree → List Char → List Char → Prop
  | .word w, s, rest => IsLiteral w ∧ ∃ b, Blank b ∧ s = b ++ (w ++ rest)
  | .string body, s, rest => IsBody body ∧ Token '"' s (body ++ '"' :: rest)
  | .array vs, s, rest => ∃ t, Token '[' s t ∧ SpellsItems true vs t rest
  | .object ms, s, rest => ∃ t, Token '\x7b' s t ∧ SpellsMembers true ms t rest

/-- The items of an array, up to its end. -/
def SpellsItems (first : Bool) : List Tree → List Char → List Char → Prop
  | [], s, rest => Token ']' s rest
  | v :: vs, s, rest => ∃ t u, Follows first s t ∧ Spells v t u ∧ SpellsItems false vs u rest

/-- The members of an object, up to its end. -/
def SpellsMembers (first : Bool) : List (List Char × Tree) → List Char → List Char → Prop
  | [], s, rest => Token '\x7d' s rest
  | (key, v) :: ms, s, rest => IsBody key ∧ ∃ t u x y, Follows first s t ∧
      Token '"' t (key ++ '"' :: u) ∧ Token ':' u x ∧ Spells v x y ∧ SpellsMembers false ms y rest

end

/-- A text spells a value and nothing else. -/
def IsText (v : Tree) (text : String) : Prop :=
  ∃ rest, Spells v text.toList rest ∧ Blank rest

/-! What comes first in a text, and what comes behind a value. -/

section Texts
variable {c : Char} {b s t rest : List Char} {v : Tree} {vs : List Tree}
  {ms : List (List Char × Tree)}

theorem isBody_of_plain (h : ∀ c ∈ s, c ≠ '"' ∧ c ≠ '\\' ∧ ¬c.toNat < 0x20) : IsBody s := by
  induction s with
  | nil => exact .nil
  | cons c s ih =>
    obtain ⟨hquote, hslash, hcontrol⟩ := h c List.mem_cons_self
    exact .plain hquote hslash hcontrol (ih fun x hx => h x (List.mem_cons_of_mem c hx))

theorem token_cons (c : Char) (s : List Char) : Token c (c :: s) s :=
  ⟨[], nofun, rfl⟩

theorem spells_word {w : List Char} (h : IsLiteral w) (rest : List Char) :
    Spells (.word w) (w ++ rest) rest :=
  ⟨h, [], nofun, rfl⟩

theorem skipSpace_blank (h : Blank b) (s : List Char) : skipSpace (b ++ s) = skipSpace s := by
  induction b with
  | nil => rfl
  | cons c b ih =>
    rw [List.cons_append, skipSpace_cons (h c List.mem_cons_self),
      ih fun x hx => h x (List.mem_cons_of_mem c hx)]

theorem Token.skipSpace (h : Token c s rest) (hc : isSpace c = false) :
    Json.skipSpace s = c :: rest := by
  obtain ⟨b, hb, rfl⟩ := h
  rw [skipSpace_blank hb, skipSpace_of_not hc]

theorem Token.length_lt (h : Token c s rest) : rest.length < s.length := by
  obtain ⟨b, -, rfl⟩ := h
  rw [List.length_append, List.length_cons]
  omega

theorem Follows.length_le {first : Bool} (h : Follows first s rest) : rest.length ≤ s.length := by
  cases first with
  | true => exact Nat.le_of_eq (congrArg List.length (show rest = s from h.symm))
  | false => exact Nat.le_of_lt (Token.length_lt h)

/-- Behind a value comes a blank, a comma, the end of a container or the end of the text. -/
def Ends (s : List Char) : Prop :=
  ∀ c r, s = c :: r → isSpace c = true ∨ c = ',' ∨ c = ']' ∨ c = '\x7d'

theorem Token.ends (h : Token c s rest) (hc : c = ',' ∨ c = ']' ∨ c = '\x7d') : Ends s := by
  obtain ⟨b, hb, rfl⟩ := h
  intro x r hx
  cases b with
  | nil => exact .inr ((List.cons.inj hx).1 ▸ hc)
  | cons y b => exact .inl ((List.cons.inj hx).1 ▸ hb y List.mem_cons_self)

theorem ends_of_items (h : SpellsItems false vs s rest) : Ends s := by
  cases vs with
  | nil => exact Token.ends h (by simp)
  | cons v vs =>
    obtain ⟨t, u, hfollows, -⟩ := h
    exact Token.ends hfollows (by simp)

theorem ends_of_members (h : SpellsMembers false ms s rest) : Ends s := by
  rcases ms with _ | ⟨⟨key, v⟩, ms⟩
  · exact Token.ends h (by simp)
  · obtain ⟨-, t, u, x, y, hfollows, -⟩ := h
    exact Token.ends hfollows (by simp)

theorem ends_of_blank (h : Blank s) : Ends s := by
  rintro c r rfl
  exact .inl (h c List.mem_cons_self)

theorem ne_of_isDigit {d : Char} (hd : d.isDigit = true) (hc : c.isDigit = false) : d ≠ c := by
  rintro rfl
  rw [hd] at hc
  cases hc

/-- A literal begins with a letter, a sign or a digit. -/
theorem IsLiteral.head (h : IsLiteral t) : ∃ c r, t = c :: r ∧ isSpace c = false ∧
    c ∉ [',', ']', '\x7d', '"', '[', '\x7b'] := by
  rcases h with (rfl | rfl | rfl) | ⟨sign, whole, fraction, power, rfl, hsign, hwhole, -⟩
  · exact ⟨_, _, rfl, rfl, by decide⟩
  · exact ⟨_, _, rfl, rfl, by decide⟩
  · exact ⟨_, _, rfl, rfl, by decide⟩
  · rcases hsign with rfl | rfl
    · obtain ⟨hne, hdigits⟩ := hwhole
      obtain ⟨d, ds, rfl⟩ := List.exists_cons_of_ne_nil hne
      have hd := hdigits d List.mem_cons_self
      refine ⟨d, _, rfl, ?_, ?_⟩
      · simp [isSpace, ne_of_isDigit hd]
      · simp [ne_of_isDigit hd]
    · exact ⟨_, _, rfl, rfl, by decide⟩

/-- The blanks before a value can be dropped, and it begins with none of the marks that come between
values. -/
theorem Spells.trim (h : Spells v s rest) : ∃ c r, Json.skipSpace s = c :: r ∧
    Spells v (c :: r) rest ∧ c ∉ [',', ']', '\x7d'] := by
  cases v with
  | word w =>
    obtain ⟨hw, b, hb, rfl⟩ := h
    obtain ⟨c, r, rfl, hspace, hc⟩ := hw.head
    refine ⟨c, r ++ rest, ?_, spells_word hw rest, ?_⟩
    · rw [skipSpace_blank hb, List.cons_append, skipSpace_of_not hspace]
    · simp_all
  | string body => exact ⟨_, _, h.2.skipSpace rfl, ⟨h.1, token_cons _ _⟩, by decide⟩
  | array vs =>
    obtain ⟨t, htoken, hitems⟩ := h
    exact ⟨_, _, htoken.skipSpace rfl, ⟨t, token_cons _ t, hitems⟩, by decide⟩
  | object ms =>
    obtain ⟨t, htoken, hmembers⟩ := h
    exact ⟨_, _, htoken.skipSpace rfl, ⟨t, token_cons _ t, hmembers⟩, by decide⟩

end Texts

/-! Members in another order. -/

mutual

/-- The members of objects are permuted, at any depth. -/
inductive Shuffled : Tree → Tree → Prop where
  | word (w : List Char) : Shuffled (.word w) (.word w)
  | string (body : List Char) : Shuffled (.string body) (.string body)
  | array {vs vs' : List Tree} (h : List.Forall₂ Shuffled vs vs') :
      Shuffled (.array vs) (.array vs')
  | object {ms ms' ms'' : List (List Char × Tree)} (h : List.Forall₂ ShuffledMember ms ms')
      (hperm : ms'.Perm ms'') : Shuffled (.object ms) (.object ms'')

/-- The key is kept as it is written; inside the value members are permuted. -/
inductive ShuffledMember : List Char × Tree → List Char × Tree → Prop where
  | mk (key : List Char) {v v' : Tree} (h : Shuffled v v') : ShuffledMember (key, v) (key, v')

end

/-- What is between quotes, unescaped. There is no character for half of a surrogate pair. -/
def unescaped? (body : List Char) : Option String :=
  (readQuoted (body ++ ['"'])).toOption.map (·.1)

mutual

/-- No object has two members with the same key, however it is escaped. -/
def Tree.Distinct : Tree → Prop
  | .word _ => True
  | .string _ => True
  | .array vs => Tree.DistinctItems vs
  | .object ms => (ms.filterMap fun m => unescaped? m.1).Nodup ∧ Tree.DistinctMembers ms

def Tree.DistinctItems : List Tree → Prop
  | [] => True
  | v :: vs => v.Distinct ∧ Tree.DistinctItems vs

def Tree.DistinctMembers : List (List Char × Tree) → Prop
  | [] => True
  | (_, v) :: ms => v.Distinct ∧ Tree.DistinctMembers ms

end

end Json
end InjectionGrammar
