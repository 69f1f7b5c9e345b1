/-!
Finite maps whose entries are listed in strictly increasing key order. Each map has one such list,
so maps with the same entries are equal.
-/
namespace InjectionGrammar

/-- A strict order in which any two different keys can be compared. -/
class KeyOrder (κ : Type) where
  precedes : κ → κ → Bool
  precedes_irrefl (a : κ) : precedes a a = false
  precedes_trans {a b c : κ} : precedes a b → precedes b c → precedes a c
  eq_of_not_precedes {a b : κ} : precedes a b = false → precedes b a = false → a = b

theorem string_lt_irrefl (a : String) : decide (a < a) = false :=
  decide_eq_false (String.lt_irrefl a)

theorem string_lt_trans {a b c : String} (h : decide (a < b)) (h' : decide (b < c)) :
    decide (a < c) := by
  simp only [decide_eq_true_eq] at h h' ⊢
  exact String.lt_trans h h'

theorem string_eq_of_not_lt {a b : String} (h : decide (a < b) = false)
    (h' : decide (b < a) = false) : a = b := by
  simp only [decide_eq_false_iff_not] at h h'
  exact String.le_antisymm (String.not_lt.1 h') (String.not_lt.1 h)

/-- Strings are ordered by their characters, which is also the order of their UTF-8 bytes. -/
instance : KeyOrder String where
  precedes a b := decide (a < b)
  precedes_irrefl := string_lt_irrefl
  precedes_trans := string_lt_trans
  eq_of_not_precedes := string_eq_of_not_lt

theorem uint32_lt_irrefl (a : UInt32) : decide (a < a) = false :=
  decide_eq_false (UInt32.lt_irrefl a)

theorem uint32_lt_trans {a b c : UInt32} (h : decide (a < b)) (h' : decide (b < c)) :
    decide (a < c) := by
  simp only [decide_eq_true_eq] at h h' ⊢
  exact UInt32.lt_trans h h'

theorem uint32_eq_of_not_lt {a b : UInt32} (h : decide (a < b) = false)
    (h' : decide (b < a) = false) : a = b := by
  simp only [decide_eq_false_iff_not] at h h'
  exact UInt32.le_antisymm (UInt32.not_lt.1 h') (UInt32.not_lt.1 h)

instance : KeyOrder UInt32 where
  precedes a b := decide (a < b)
  precedes_irrefl := uint32_lt_irrefl
  precedes_trans := uint32_lt_trans
  eq_of_not_precedes := uint32_eq_of_not_lt

section Lists
variable {κ : Type} [KeyOrder κ]

/-- The first place where two lists differ decides; a list comes before those that go on. -/
def listPrecedes : List κ → List κ → Bool
  | [], [] => false
  | [], _ :: _ => true
  | _ :: _, [] => false
  | a :: as, b :: bs =>
    KeyOrder.precedes a b || (!KeyOrder.precedes b a && listPrecedes as bs)

theorem listPrecedes_irrefl (as : List κ) : listPrecedes as as = false := by
  induction as with
  | nil => rfl
  | cons a as ih => simp [listPrecedes, KeyOrder.precedes_irrefl, ih]

theorem listPrecedes_cons {a b : κ} {as bs : List κ} :
    listPrecedes (a :: as) (b :: bs) ↔
      KeyOrder.precedes a b ∨ (a = b ∧ listPrecedes as bs) := by
  simp only [listPrecedes, Bool.or_eq_true, Bool.and_eq_true, Bool.not_eq_true']
  constructor
  · rintro (h | ⟨h, h'⟩)
    · exact .inl h
    · by_cases hab : KeyOrder.precedes a b = true
      · exact .inl hab
      · exact .inr ⟨KeyOrder.eq_of_not_precedes (by simpa using hab) h, h'⟩
  · rintro (h | ⟨rfl, h⟩)
    · exact .inl h
    · exact .inr ⟨KeyOrder.precedes_irrefl a, h⟩

theorem listPrecedes_trans {as bs cs : List κ} (h : listPrecedes as bs)
    (h' : listPrecedes bs cs) : listPrecedes as cs := by
  induction as generalizing bs cs with
  | nil => cases bs <;> cases cs <;> simp_all [listPrecedes]
  | cons a as ih =>
    cases bs with
    | nil => simp [listPrecedes] at h
    | cons b bs =>
      cases cs with
      | nil => simp [listPrecedes] at h'
      | cons c cs =>
        rw [listPrecedes_cons] at h h' ⊢
        rcases h with h | ⟨rfl, h⟩ <;> rcases h' with h' | ⟨rfl, h'⟩
        · exact .inl (KeyOrder.precedes_trans h h')
        · exact .inl h
        · exact .inl h'
        · exact .inr ⟨rfl, ih h h'⟩

theorem eq_of_not_listPrecedes {as bs : List κ} (h : listPrecedes as bs = false)
    (h' : listPrecedes bs as = false) : as = bs := by
  induction as generalizing bs with
  | nil => cases bs <;> simp_all [listPrecedes]
  | cons a as ih =>
    cases bs with
    | nil => simp [listPrecedes] at h'
    | cons b bs =>
      simp only [listPrecedes, Bool.or_eq_false_iff] at h h'
      cases KeyOrder.eq_of_not_precedes h.1 h'.1
      simp only [h.1, Bool.not_false, Bool.true_and] at h h'
      rw [ih h.2 h'.2]

instance : KeyOrder (List κ) where
  precedes := listPrecedes
  precedes_irrefl := listPrecedes_irrefl
  precedes_trans := listPrecedes_trans
  eq_of_not_precedes := eq_of_not_listPrecedes

end Lists

/-- A finite map, as the list of its entries in strictly increasing key order. -/
structure OrderedMap (κ ν : Type) [KeyOrder κ] where
  entries : List (κ × ν)
  sorted : entries.Pairwise (fun a b => KeyOrder.precedes a.1 b.1 = true) := by exact .nil

namespace OrderedMap
variable {κ ν : Type} [KeyOrder κ]

theorem ext {m n : OrderedMap κ ν} (h : m.entries = n.entries) : m = n := by
  cases m; cases n; cases h; rfl

instance [DecidableEq κ] [DecidableEq ν] : DecidableEq (OrderedMap κ ν) := fun m n =>
  decidable_of_iff (m.entries = n.entries) ⟨ext, fun h => h ▸ rfl⟩

/-- The map without entries. -/
def empty : OrderedMap κ ν where
  entries := []

instance : Inhabited (OrderedMap κ ν) := ⟨empty⟩

def keys (m : OrderedMap κ ν) : List κ :=
  m.entries.map (·.1)

def size (m : OrderedMap κ ν) : Nat :=
  m.entries.length

def isEmpty (m : OrderedMap κ ν) : Bool :=
  m.entries.isEmpty

/-- The value stored under a key. -/
def get? [DecidableEq κ] (m : OrderedMap κ ν) (k : κ) : Option ν :=
  (m.entries.find? fun e => e.1 = k).map (·.2)

def contains [DecidableEq κ] (m : OrderedMap κ ν) (k : κ) : Bool :=
  (m.get? k).isSome

/-- Puts an entry in its place, over an entry with the same key if there is one. -/
def insertEntry (k : κ) (v : ν) : List (κ × ν) → List (κ × ν)
  | [] => [(k, v)]
  | e :: es =>
    if KeyOrder.precedes k e.1 then (k, v) :: e :: es
    else if KeyOrder.precedes e.1 k then e :: insertEntry k v es
    else (k, v) :: es

theorem mem_insertEntry {k : κ} {v : ν} {x : κ × ν} {es : List (κ × ν)}
    (h : x ∈ insertEntry k v es) : x = (k, v) ∨ x ∈ es := by
  induction es with
  | nil => simpa [insertEntry] using h
  | cons e es ih =>
    simp only [insertEntry] at h
    split at h
    · simpa using h
    · split at h
      · rcases List.mem_cons.1 h with rfl | h
        · simp
        · rcases ih h with h | h <;> simp [h]
      · rcases List.mem_cons.1 h with h | h <;> simp [h]

theorem sorted_insertEntry {k : κ} {v : ν} {es : List (κ × ν)}
    (h : es.Pairwise (fun a b => KeyOrder.precedes a.1 b.1 = true)) :
    (insertEntry k v es).Pairwise (fun a b => KeyOrder.precedes a.1 b.1 = true) := by
  induction es with
  | nil => simp [insertEntry]
  | cons e es ih =>
    obtain ⟨he, hes⟩ := List.pairwise_cons.1 h
    simp only [insertEntry]
    split
    · rename_i hk
      refine List.pairwise_cons.2 ⟨?_, h⟩
      intro x hx
      rcases List.mem_cons.1 hx with rfl | hx
      · exact hk
      · exact KeyOrder.precedes_trans hk (he x hx)
    · rename_i hk
      split
      · rename_i hk'
        refine List.pairwise_cons.2 ⟨?_, ih hes⟩
        intro x hx
        rcases mem_insertEntry hx with rfl | hx
        · exact hk'
        · exact he x hx
      · rename_i hk'
        cases KeyOrder.eq_of_not_precedes (by simpa using hk) (by simpa using hk')
        exact List.pairwise_cons.2 ⟨he, hes⟩

/-- Stores a value, replacing the one under the same key. -/
def insert (m : OrderedMap κ ν) (k : κ) (v : ν) : OrderedMap κ ν where
  entries := insertEntry k v m.entries
  sorted := sorted_insertEntry m.sorted

theorem find?_insertEntry [DecidableEq κ] (k k' : κ) (v : ν) (es : List (κ × ν)) :
    (insertEntry k v es).find? (fun e => e.1 = k') =
      if k = k' then some (k, v) else es.find? (fun e => e.1 = k') := by
  induction es with
  | nil => by_cases h : k = k' <;> simp [insertEntry, h]
  | cons e es ih =>
    simp only [insertEntry]
    split
    · by_cases h : k = k' <;> simp [h]
    · rename_i hk
      split
      · rename_i hk'
        by_cases he : e.1 = k'
        · have hne : ¬k = k' := by
            rintro rfl
            rw [he, KeyOrder.precedes_irrefl] at hk'
            cases hk'
          simp [he, hne]
        · simp [he, ih]
      · rename_i hk'
        have he : k = e.1 := KeyOrder.eq_of_not_precedes (by simpa using hk) (by simpa using hk')
        by_cases h : k = k' <;> simp [h, ← he]

/-- What is stored is found, and nothing else changes. -/
theorem get?_insert [DecidableEq κ] (m : OrderedMap κ ν) (k k' : κ) (v : ν) :
    (m.insert k v).get? k' = if k = k' then some v else m.get? k' := by
  unfold get? insert
  simp only [find?_insertEntry]
  split <;> rfl

@[simp] theorem get?_empty [DecidableEq κ] (k : κ) : (empty : OrderedMap κ ν).get? k = none := rfl

theorem contains_insert [DecidableEq κ] (m : OrderedMap κ ν) (k k' : κ) (v : ν) :
    (m.insert k v).contains k' = (decide (k = k') || m.contains k') := by
  unfold contains
  rw [get?_insert]
  split <;> simp_all

/-- Stores the pairs one after another; of two with one key the later stays. -/
def ofList (es : List (κ × ν)) : OrderedMap κ ν :=
  es.foldl (fun m e => m.insert e.1 e.2) empty

/-- Keeps the entries that fulfil a condition. -/
def filter (m : OrderedMap κ ν) (p : κ × ν → Bool) : OrderedMap κ ν where
  entries := m.entries.filter p
  sorted := m.sorted.filter p

end OrderedMap
end InjectionGrammar
