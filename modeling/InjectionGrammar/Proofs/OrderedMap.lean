import InjectionGrammar.OrderedMap
import Mathlib.Data.List.Nodup

/-! Ordered maps are determined by what is found under each key. -/
namespace InjectionGrammar

/-- Where no two items have the same key, a search by key finds the one item that has it. -/
theorem find?_key_eq_some {α κ : Type} [DecidableEq κ] {key : α → κ} {as : List α} {a : α} {k : κ}
    (h : (as.map key).Nodup) :
    as.find? (fun x => key x = k) = some a ↔ a ∈ as ∧ key a = k := by
  constructor
  · intro hf
    exact ⟨List.mem_of_find?_eq_some hf, by simpa using List.find?_some hf⟩
  · rintro ⟨ha, hk⟩
    cases hf : as.find? fun x => key x = k with
    | none => simpa [hk] using List.find?_eq_none.1 hf a ha
    | some b =>
      have hb : key b = k := by simpa using List.find?_some hf
      rw [List.inj_on_of_nodup_map h (List.mem_of_find?_eq_some hf) ha (hb.trans hk.symm)]

/-- Where keys are unique, the order does not matter for what is found by key. -/
theorem find?_key_perm {α κ : Type} [DecidableEq κ] {key : α → κ} {as bs : List α}
    (h : as.Perm bs) (hnodup : (as.map key).Nodup) (k : κ) :
    as.find? (fun a => key a = k) = bs.find? fun a => key a = k := by
  have hnodup' : (bs.map key).Nodup := (h.map key).nodup_iff.1 hnodup
  apply Option.ext
  intro a
  rw [find?_key_eq_some hnodup, find?_key_eq_some hnodup', h.mem_iff]

namespace OrderedMap
variable {κ ν : Type} [KeyOrder κ]

theorem ne_of_precedes {a b : κ} (h : KeyOrder.precedes a b = true) : a ≠ b := by
  rintro rfl
  simp [KeyOrder.precedes_irrefl] at h

theorem keys_nodup (m : OrderedMap κ ν) : m.keys.Nodup :=
  List.pairwise_map.2 (m.sorted.imp ne_of_precedes)

variable [DecidableEq κ] {m n : OrderedMap κ ν} {k : κ} {v : ν}

theorem get?_eq_some_iff : m.get? k = some v ↔ (k, v) ∈ m.entries := by
  unfold get?
  rw [Option.map_eq_some_iff]
  constructor
  · rintro ⟨e, hf, rfl⟩
    obtain ⟨he, rfl⟩ := (find?_key_eq_some m.keys_nodup).1 hf
    exact he
  · intro h
    exact ⟨(k, v), (find?_key_eq_some m.keys_nodup).2 ⟨h, rfl⟩, rfl⟩

theorem mem_keys : k ∈ m.keys ↔ m.contains k = true := by
  rw [contains, Option.isSome_iff_exists]
  constructor
  · intro h
    obtain ⟨e, he, rfl⟩ := List.mem_map.1 h
    exact ⟨e.2, get?_eq_some_iff.2 he⟩
  · rintro ⟨v, hv⟩
    exact List.mem_map.2 ⟨(k, v), get?_eq_some_iff.1 hv, rfl⟩

theorem eq_of_get? (h : ∀ k, m.get? k = n.get? k) : m = n := by
  have hmem : ∀ e, e ∈ m.entries ↔ e ∈ n.entries := by
    intro e
    rw [← get?_eq_some_iff (k := e.1) (v := e.2), ← get?_eq_some_iff (k := e.1) (v := e.2), h]
  have hperm : m.entries.Perm n.entries :=
    (List.perm_ext_iff_of_nodup m.keys_nodup.of_map n.keys_nodup.of_map).2 hmem
  apply ext
  apply hperm.eq_of_pairwise _ m.sorted n.sorted
  intro a b _ _ hab hba
  have haa := KeyOrder.precedes_trans hab hba
  simp [KeyOrder.precedes_irrefl] at haa

/-- Storing what is there already changes nothing. -/
theorem insert_of_get? (h : m.get? k = some v) : m.insert k v = m := by
  apply eq_of_get?
  intro k'
  rw [get?_insert]
  split
  · next hk => rw [← hk, h]
  · rfl

omit [DecidableEq κ] in
theorem insertEntry_of_last {es : List (κ × ν)} (h : ∀ e ∈ es, KeyOrder.precedes e.1 k = true) :
    insertEntry k v es = es ++ [(k, v)] := by
  induction es with
  | nil => rfl
  | cons e es ih =>
    have he := h e List.mem_cons_self
    have hke : ¬KeyOrder.precedes k e.1 = true := by
      intro hke
      have := KeyOrder.precedes_trans hke he
      simp [KeyOrder.precedes_irrefl] at this
    rw [insertEntry, if_neg hke, if_pos he, ih fun x hx => h x (List.mem_cons_of_mem _ hx)]
    rfl

omit [DecidableEq κ] in
/-- Entries that come in order are stored behind each other. -/
theorem entries_foldl_insert {es : List (κ × ν)} {m : OrderedMap κ ν}
    (h : (m.entries ++ es).Pairwise fun a b => KeyOrder.precedes a.1 b.1 = true) :
    (es.foldl (fun m e => m.insert e.1 e.2) m).entries = m.entries ++ es := by
  induction es generalizing m with
  | nil => exact (List.append_nil _).symm
  | cons e es ih =>
    have hlast : ∀ x ∈ m.entries, KeyOrder.precedes x.1 e.1 = true := by
      intro x hx
      exact (List.pairwise_append.1 h).2.2 x hx e List.mem_cons_self
    have hinsert : (m.insert e.1 e.2).entries = m.entries ++ [e] := insertEntry_of_last hlast
    have hsplit : (m.insert e.1 e.2).entries ++ es = m.entries ++ e :: es := by
      rw [hinsert, List.append_assoc]
      rfl
    rw [List.foldl_cons, ih (hsplit ▸ h), hsplit]

omit [DecidableEq κ] in
/-- A map is what its entries make when they are stored one after another. -/
theorem ofList_entries (m : OrderedMap κ ν) : ofList m.entries = m :=
  ext (entries_foldl_insert (m := empty) m.sorted)

omit [DecidableEq κ] in
theorem mem_entries_foldl_insert {es : List (κ × ν)} {m : OrderedMap κ ν} {x : κ × ν}
    (h : x ∈ (es.foldl (fun m e => m.insert e.1 e.2) m).entries) : x ∈ m.entries ∨ x ∈ es := by
  induction es generalizing m with
  | nil => exact .inl h
  | cons e es ih =>
    rcases ih h with hx | hx
    · rcases mem_insertEntry hx with rfl | hx
      · exact .inr List.mem_cons_self
      · exact .inl hx
    · exact .inr (List.mem_cons_of_mem _ hx)

omit [DecidableEq κ] in
/-- What is stored is one of the pairs. -/
theorem mem_of_mem_ofList {es : List (κ × ν)} {x : κ × ν} (h : x ∈ (ofList es).entries) :
    x ∈ es := by
  rcases mem_entries_foldl_insert h with hx | hx
  · cases hx
  · exact hx

/-- The last of the pairs with the key has the value. -/
def IsLast (es : List (κ × ν)) (k : κ) (v : ν) : Prop :=
  ∃ before after, es = before ++ (k, v) :: after ∧ ∀ e ∈ after, e.1 ≠ k

omit [KeyOrder κ] in
theorem isLast_iff {es : List (κ × ν)} :
    IsLast es k v ↔ es.reverse.find? (fun e => e.1 = k) = some (k, v) := by
  rw [List.find?_eq_some_iff_append]
  constructor
  · rintro ⟨before, after, rfl, hafter⟩
    refine ⟨decide_eq_true rfl, after.reverse, before.reverse, by simp, ?_⟩
    intro e he
    simpa using hafter e (List.mem_reverse.1 he)
  · rintro ⟨-, after, before, hes, hafter⟩
    refine ⟨before.reverse, after.reverse, ?_, ?_⟩
    · simpa using congrArg List.reverse hes
    · intro e he
      simpa using hafter e (List.mem_reverse.1 he)

omit [KeyOrder κ] in
theorem isLast_map {ν' : Type} {f : ν → ν'} {es : List (κ × ν)} {v' : ν'} :
    IsLast (es.map fun e => (e.1, f e.2)) k v' ↔ ∃ v, IsLast es k v ∧ f v = v' := by
  simp only [isLast_iff, ← List.map_reverse, List.find?_map, Option.map_eq_some_iff, Prod.mk.injEq,
    Function.comp_def]
  constructor
  · rintro ⟨⟨k', v⟩, he, rfl, rfl⟩
    exact ⟨v, he, rfl⟩
  · rintro ⟨v, he, rfl⟩
    exact ⟨(k, v), he, rfl, rfl⟩

theorem get?_foldl_insert (es : List (κ × ν)) (m : OrderedMap κ ν) (k : κ) :
    (es.foldl (fun m e => m.insert e.1 e.2) m).get? k =
      ((es.reverse.find? fun e => e.1 = k).map (·.2)).or (m.get? k) := by
  induction es generalizing m with
  | nil => rfl
  | cons e es ih =>
    rw [List.foldl_cons, ih, get?_insert, List.reverse_cons, List.find?_append]
    cases es.reverse.find? fun e => decide (e.1 = k) with
    | some e' => rfl
    | none => by_cases hk : e.1 = k <;> simp [hk]

/-- Under each key stays what was stored last. -/
theorem get?_ofList_eq_some {es : List (κ × ν)} : (ofList es).get? k = some v ↔ IsLast es k v := by
  rw [isLast_iff, ofList, get?_foldl_insert, get?_empty, Option.or_none, Option.map_eq_some_iff]
  constructor
  · rintro ⟨e, he, rfl⟩
    have hk : e.1 = k := by simpa using List.find?_some he
    rw [he, ← hk]
  · intro h
    exact ⟨(k, v), h, rfl⟩

omit [DecidableEq κ] in
theorem ofList_concat (es : List (κ × ν)) (k : κ) (v : ν) :
    ofList (es ++ [(k, v)]) = (ofList es).insert k v := by
  rw [ofList, List.foldl_append]
  rfl

/-- The order in which pairs are stored makes no difference if no two have the same key. -/
theorem ofList_perm {es es' : List (κ × ν)} (h : es.Perm es') (hnodup : (es.map (·.1)).Nodup) :
    ofList es = ofList es' := by
  have hreverse : es.reverse.Perm es'.reverse :=
    (List.reverse_perm es).trans (h.trans (List.reverse_perm es').symm)
  have hnodup' : (es.reverse.map (·.1)).Nodup := by
    rw [List.map_reverse]
    exact List.nodup_reverse.2 hnodup
  apply eq_of_get?
  intro k
  rw [ofList, get?_foldl_insert, find?_key_perm hreverse hnodup', ofList, get?_foldl_insert]

/-- The order in which two keys are stored makes no difference. -/
theorem insert_comm {k' : κ} {v' : ν} (h : k ≠ k') :
    (m.insert k v).insert k' v' = (m.insert k' v').insert k v := by
  apply eq_of_get?
  intro x
  simp only [get?_insert]
  split
  · next hx =>
    subst hx
    rw [if_neg h]
  · rfl

end OrderedMap
end InjectionGrammar
