import InjectionGrammar.Json.Reader
import InjectionGrammar.Proofs.Outcome
import Mathlib.Data.List.Forall2

/-! Reading into images: if items, values and fields are read into the images of what they are read
into otherwise, so are the lists, objects and records made of them. -/
namespace InjectionGrammar
namespace Json
variable {α β γ κ σ τ : Type}

/-- The image of a value, behind which the same text is left. -/
abbrev onValue (k : α → β) (p : α × List Char) : β × List Char :=
  (k p.1, p.2)

theorem Reader.map_apply (read : Reader α) (f : α → β) (s : List Char) :
    read.map f s = (read s).map (onValue f) := rfl

theorem Reader.map_map (read : Reader α) (f : α → β) (k : β → γ) :
    (read.map f).map k = read.map fun a => k (f a) := by
  funext s
  unfold Reader.map
  cases read s <;> rfl

/-- What is done to a value makes no difference to where the text has to end. -/
theorem Reader.run_map (read : Reader α) (k : α → β) (text : String) :
    (read.map k).run text = (read.run text).map k := by
  unfold Reader.run
  dsimp only
  rw [← Except.mapError_map, Except.map_bind, Reader.map_apply, Except.bind_map]
  congr 1
  congr 1
  funext ⟨a, rest⟩
  dsimp only
  cases skipSpace rest <;> rfl

theorem bind_stop_map (x : Except Stop γ) (p : γ → Problem) (rest : γ → List Char) (k : α → β) :
    (x >>= fun c => stop (p c) (rest c)) = (x >>= fun c => stop (p c) (rest c)).map k := by
  rw [Except.map_bind]
  rfl

theorem wrongType_map (expected : String) (s : List Char) (k : α → β) :
    (wrongType expected s : Except Stop β) = (wrongType expected s).map k := by
  unfold wrongType
  split
  · rfl
  · iterate 8
      split
      · first
        | exact bind_stop_map _ _ _ k
        | rfl
    rfl

section Lists
variable (item : Reader α) (k : α → β)

theorem readItems_map (fuel : Nat) (first : Bool) :
    readItems (item.map k) fuel first = (readItems item fuel first).map (List.map k) := by
  induction fuel generalizing first with
  | zero => rfl
  | succ fuel ih =>
    funext s
    rw [Reader.map_apply, readItems, readItems, Except.map_bind]
    congr 1
    funext next
    cases next with
    | done r => rfl
    | item r =>
      dsimp only
      rw [Except.map_bind, Reader.map_apply, Except.bind_map, ih]
      congr 1
      funext ⟨a, r⟩
      rw [Except.map_bind]
      dsimp only
      rw [Reader.map_apply, Except.bind_map]
      rfl

theorem readList_map (levels : Nat) :
    readList levels (item.map k) = (readList levels item).map (List.map k) := by
  funext s
  change readList levels (item.map k) s = (readList levels item s).map (onValue (List.map k))
  unfold readList
  cases skipSpace s with
  | nil => rfl
  | cons c r =>
    dsimp only
    split
    · split
      · rfl
      · exact congrFun (readItems_map item k _ true) r
    · exact wrongType_map _ _ _

end Lists

section Pairs
variable (key : Reader κ) (value : Reader α) (k : α → β)

theorem readEntries_map (fuel : Nat) (first : Bool) :
    readEntries key (value.map k) fuel first =
      (readEntries key value fuel first).map (List.map fun e => (e.1, k e.2)) := by
  induction fuel generalizing first with
  | zero => rfl
  | succ fuel ih =>
    funext s
    rw [Reader.map_apply, readEntries, readEntries, Except.map_bind]
    congr 1
    funext next
    cases next with
    | done r => rfl
    | item r =>
      dsimp only
      rw [Except.map_bind]
      congr 1
      funext ⟨x, r⟩
      dsimp only
      rw [Except.map_bind]
      congr 1
      funext r
      rw [Except.map_bind, Reader.map_apply, Except.bind_map, ih]
      congr 1
      funext ⟨a, r⟩
      rw [Except.map_bind]
      dsimp only
      rw [Reader.map_apply, Except.bind_map]
      rfl

theorem readPairs_map (levels : Nat) : readPairs levels key (value.map k) =
    (readPairs levels key value).map (List.map fun e => (e.1, k e.2)) := by
  funext s
  change readPairs levels key (value.map k) s =
    (readPairs levels key value s).map (onValue (List.map fun e => (e.1, k e.2)))
  unfold readPairs
  cases skipSpace s with
  | nil => rfl
  | cons c r =>
    dsimp only
    split
    · split
      · rfl
      · exact congrFun (readEntries_map key value k _ true) r
    · exact wrongType_map _ _ _

end Pairs

/-- The second field changes the image of a record as the first one changes the record. -/
inductive Field.Along (k : σ → τ) : Field σ → Field τ → Prop where
  | mk {α : Type} (name : String) (read : Reader α) (set : α → σ → σ) (set' : α → τ → τ)
      (h : ∀ a r, k (set a r) = set' a (k r)) :
      Along k ⟨name, read.map set⟩ ⟨name, read.map set'⟩

namespace Layout

/-- The second layout has the same fields as the first, for the images of its records. -/
structure Along (k : σ → τ) (l : Layout σ) (l' : Layout τ) : Prop where
  title : l'.title = l.title
  optional : l'.optional = l.optional
  initial : l'.initial = k l.initial
  fields : List.Forall₂ (Field.Along k) l.fields l'.fields

variable {k : σ → τ} {l : Layout σ} {l' : Layout τ}

/-- The same names are found in both layouts. -/
theorem find?_along {fs : List (Field σ)} {fs' : List (Field τ)}
    (h : List.Forall₂ (Field.Along k) fs fs') (p : String → Bool) :
    Option.Rel (Field.Along k) (fs.find? fun f => p f.name) (fs'.find? fun f => p f.name) := by
  induction h with
  | nil => exact .none
  | cons hf _ ih =>
    cases hf with
    | mk name read set set' hset =>
      cases hp : p name with
      | true =>
        simp only [List.find?_cons, hp]
        exact .some (.mk name read set set' hset)
      | false => simpa only [List.find?_cons, hp] using ih

theorem Along.missing? (h : l.Along k l') (seen : List String) :
    l'.missing? seen = l.missing? seen := by
  have hmissing := find?_along h.fields fun name => !seen.contains name
  unfold Layout.missing?
  rw [h.optional]
  generalize l.fields.find? (fun f => !seen.contains f.name) = f? at hmissing
  generalize l'.fields.find? (fun f => !seen.contains f.name) = f?' at hmissing
  cases hmissing with
  | none => rfl
  | some hf =>
    cases hf
    rfl

/-- The members are read from the same places, whatever they are read into. The induction is on the
fuel, with the image of the record as the record of the second layout. -/
theorem Along.readMembers (h : l.Along k l') (fuel : Nat) (first : Bool) (seen : List String)
    (record : σ) (s : List Char) :
    l'.readMembers fuel first seen (k record) s =
      (l.readMembers fuel first seen record s).map (onValue k) := by
  induction fuel generalizing first seen record s with
  | zero => rfl
  | succ fuel ih =>
    rw [Layout.readMembers, Layout.readMembers, Except.map_bind]
    congr 1
    funext next
    cases next with
    | done r =>
      dsimp only
      rw [h.missing?]
      cases l.missing? seen <;> rfl
    | item r =>
      dsimp only
      rw [Except.map_bind]
      congr 1
      funext ⟨name, r⟩
      have hfield := find?_along h.fields (· == name)
      dsimp only
      generalize l.fields.find? (fun f => f.name == name) = f? at hfield
      generalize l'.fields.find? (fun f => f.name == name) = f?' at hfield
      cases hfield with
      | none =>
        dsimp only
        rw [Except.map_bind]
        congr 1
        funext r
        rw [Except.map_bind]
        congr 1
        funext r
        exact ih false seen record r
      | some hf =>
        cases hf with
        | mk name' read set set' hset =>
          dsimp only
          split
          · rfl
          · rw [Except.map_bind]
            congr 1
            funext r
            rw [Except.map_bind, Reader.map_apply, Reader.map_apply, Except.bind_map,
              Except.bind_map]
            congr 1
            funext ⟨a, r⟩
            dsimp only
            -- the field has changed the image as it has changed the record
            rw [← hset]
            exact ih _ _ _ _

theorem Along.readPlaces (h : l.Along k l') {fs : List (Field σ)} {fs' : List (Field τ)}
    (hfs : List.Forall₂ (Field.Along k) fs fs') (record : σ) (s : List Char) :
    l'.readPlaces fs' (k record) s = (l.readPlaces fs record s).map (onValue k) := by
  have hlength : l'.fields.length = l.fields.length := h.fields.length_eq.symm
  induction hfs generalizing record s with
  | nil =>
    rw [Layout.readPlaces, Layout.readPlaces]
    cases readEnd s <;> rfl
  | @cons f f' fs fs' hf hfs ih =>
    have hshape : l'.shape = l.shape := by
      rw [Layout.shape, h.title, hlength]
      rfl
    rw [Layout.readPlaces, Layout.readPlaces]
    dsimp only
    rw [Except.map_bind, List.length_cons, List.length_cons, hlength, hfs.length_eq]
    congr 1
    funext next
    cases next with
    | done r =>
      dsimp only
      rw [h.optional, hshape]
      split <;> rfl
    | item r =>
      cases hf with
      | mk name read set set' hset =>
        dsimp only
        rw [Except.map_bind, Reader.map_apply, Reader.map_apply, Except.bind_map, Except.bind_map]
        congr 1
        funext ⟨a, r⟩
        dsimp only
        rw [← hset]
        exact ih _ _

/-- What is read by the second layout is the image of what is read by the first. -/
theorem Along.read (h : l.Along k l') (levels : Nat) :
    l'.read levels = (l.read levels).map k := by
  funext s
  change l'.read levels s = (l.read levels s).map (onValue k)
  unfold Layout.read
  cases skipSpace s with
  | nil => rfl
  | cons c r =>
    dsimp only
    split
    · split
      · rfl
      · split
        · rw [h.initial]
          exact h.readPlaces h.fields _ _
        · rw [h.initial]
          exact h.readMembers _ _ _ _ _
    · rw [h.title]
      exact wrongType_map _ _ _

end Layout
end Json
end InjectionGrammar
