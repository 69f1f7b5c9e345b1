import InjectionGrammar.Proofs.Yaml.Scalar.Quoted
import InjectionGrammar.Yaml.Document

/-! Values in flow style on one line: strings between double quotes, sequences between brackets,
mappings between braces. -/
namespace InjectionGrammar
namespace Yaml

/-- A value as it is written; a mapping lists its members in their order. -/
inductive Tree where
  | scalar (text : String)
  | sequence (items : List Tree)
  | mapping (members : List (String × Tree))

/-! Texts. Each relation leads from a text to what is left of it. -/

/-- Puts what comes before an item: nothing before the first one, a comma and a blank before the
others. -/
def following (first : Bool) (s : List Char) : List Char :=
  if first then s else ',' :: ' ' :: s

/-- A string between quotes. -/
def Quotes (text : String) (s rest : List Char) : Prop :=
  ∃ body, IsBody text.toList body ∧ s = '"' :: (body ++ '"' :: rest)

/-- A key with its colon. A key that is too long is none. -/
def Names (key : String) (s rest : List Char) : Prop :=
  ∃ body, IsBody key.toList body ∧ byteLength body ≤ 1000 ∧
    s = '"' :: (body ++ '"' :: ':' :: ' ' :: rest)

mutual

def Writes : Tree → List Char → List Char → Prop
  | .scalar text, s, rest => Quotes text s rest
  | .sequence vs, s, rest => ∃ t, s = '[' :: t ∧ WritesItems true vs t rest
  | .mapping ms, s, rest => ∃ t, s = '\x7b' :: t ∧ WritesMembers true ms t rest

/-- The items of a sequence, up to its end. -/
def WritesItems (first : Bool) : List Tree → List Char → List Char → Prop
  | [], s, rest => s = ']' :: rest
  | v :: vs, s, rest => ∃ t u, s = following first t ∧ Writes v t u ∧ WritesItems false vs u rest

/-- The members of a mapping, up to its end. -/
def WritesMembers (first : Bool) : List (String × Tree) → List Char → List Char → Prop
  | [], s, rest => s = '\x7d' :: rest
  | (key, v) :: ms, s, rest => ∃ t u x, s = following first t ∧ Names key t u ∧ Writes v u x ∧
      WritesMembers false ms x rest

end

section
variable {rest s : List Char} {text key : String} {first : Bool}

theorem isKept_of_quotes (h : Quotes text s rest) (hrest : ∀ c ∈ rest, isKept c = true) :
    ∀ c ∈ s, isKept c = true := by
  obtain ⟨body, hbody, rfl⟩ := h
  have hquote : isKept '"' = true := by decide
  simp only [List.forall_mem_cons, List.forall_mem_append]
  exact ⟨hquote, isKept_of_isBody hbody, hquote, hrest⟩

theorem isKept_of_names (h : Names key s rest) (hrest : ∀ c ∈ rest, isKept c = true) :
    ∀ c ∈ s, isKept c = true := by
  obtain ⟨body, hbody, -, rfl⟩ := h
  refine isKept_of_quotes ⟨body, hbody, rfl⟩ ?_
  simp only [List.forall_mem_cons]
  exact ⟨by decide, by decide, hrest⟩

theorem isKept_of_following (h : ∀ c ∈ s, isKept c = true) :
    ∀ c ∈ following first s, isKept c = true := by
  cases first with
  | true => exact h
  | false =>
    simp only [following, Bool.false_eq_true, if_false, List.forall_mem_cons]
    exact ⟨by decide, by decide, h⟩

end

mutual

theorem Tree.isKept_of_writes (v : Tree) {s rest : List Char} (h : Writes v s rest)
    (hrest : ∀ c ∈ rest, isKept c = true) : ∀ c ∈ s, isKept c = true := by
  cases v with
  | scalar text => exact isKept_of_quotes h hrest
  | sequence vs =>
    obtain ⟨t, rfl, hvs⟩ := h
    exact List.forall_mem_cons.2 ⟨by decide, isKept_of_writesItems vs hvs hrest⟩
  | mapping ms =>
    obtain ⟨t, rfl, hms⟩ := h
    exact List.forall_mem_cons.2 ⟨by decide, isKept_of_writesMembers ms hms hrest⟩

theorem isKept_of_writesItems (vs : List Tree) {first : Bool} {s rest : List Char}
    (h : WritesItems first vs s rest) (hrest : ∀ c ∈ rest, isKept c = true) :
    ∀ c ∈ s, isKept c = true := by
  cases vs with
  | nil =>
    obtain rfl : s = ']' :: rest := h
    exact List.forall_mem_cons.2 ⟨by decide, hrest⟩
  | cons v vs =>
    obtain ⟨t, u, rfl, hv, hvs⟩ := h
    have hu := isKept_of_writesItems vs hvs hrest
    exact isKept_of_following (v.isKept_of_writes hv hu)

theorem isKept_of_writesMembers (ms : List (String × Tree)) {first : Bool} {s rest : List Char}
    (h : WritesMembers first ms s rest) (hrest : ∀ c ∈ rest, isKept c = true) :
    ∀ c ∈ s, isKept c = true := by
  cases ms with
  | nil =>
    obtain rfl : s = '\x7d' :: rest := h
    exact List.forall_mem_cons.2 ⟨by decide, hrest⟩
  | cons m ms =>
    obtain ⟨key, v⟩ := m
    obtain ⟨t, u, x, rfl, hkey, hv, hms⟩ := h
    have hx := isKept_of_writesMembers ms hms hrest
    exact isKept_of_following (isKept_of_names hkey (v.isKept_of_writes hv hx))

end

/-! What a value consists of, as tokens and as nodes. -/

/-- What comes before an item. -/
def separator (first : Bool) : List Token.Kind :=
  if first then [] else [.flowEntry]

mutual

def Tree.kinds : Tree → List Token.Kind
  | .scalar text => [.scalar text .doubleQuoted]
  | .sequence vs => .flowSequenceStart :: itemKinds true vs
  | .mapping ms => .flowMappingStart :: memberKinds true ms

def itemKinds (first : Bool) : List Tree → List Token.Kind
  | [] => [.flowSequenceEnd]
  | v :: vs => separator first ++ (v.kinds ++ itemKinds false vs)

def memberKinds (first : Bool) : List (String × Tree) → List Token.Kind
  | [] => [.flowMappingEnd]
  | (key, v) :: ms => separator first ++
      (.key :: .scalar key .doubleQuoted :: .value :: (v.kinds ++ memberKinds false ms))

end

mutual

def Tree.nodes : Tree → List Node
  | .scalar text => [.scalar text .doubleQuoted none]
  | .sequence vs => .sequenceStart none :: itemNodes vs
  | .mapping ms => .mappingStart none :: memberNodes ms

def itemNodes : List Tree → List Node
  | [] => [.sequenceEnd]
  | v :: vs => v.nodes ++ itemNodes vs

def memberNodes : List (String × Tree) → List Node
  | [] => [.mappingEnd]
  | (key, v) :: ms => .scalar key .doubleQuoted none :: (v.nodes ++ memberNodes ms)

end

end Yaml
end InjectionGrammar
