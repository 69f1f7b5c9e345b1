import InjectionGrammar.Proofs.Outcome
import InjectionGrammar.Yaml.Reader
import Mathlib.Data.List.Forall2

/-! Two ways to read one record: if each field changes the image of a record as it changes the
record, what is read in one way is the image of what is read in the other. -/
namespace InjectionGrammar
namespace Yaml
variable {α β σ τ : Type}

/-- The image of a value, behind which reading goes on at the same position. -/
abbrev onValue (k : α → β) (r : α × Position) : β × Position :=
  (k r.1, r.2)

theorem Document.read_map (d : Document) (p : Position)
    (content : Node → Mark → Position → Except Fault (α × Position)) (k : α → β) :
    (d.read p fun node m p => (content node m p).map (onValue k)) =
      (d.read p content).map (onValue k) := by
  unfold Document.read
  rw [Except.map_bind]
  congr 1
  funext ⟨node, m, p⟩
  cases node with
  | reference slot =>
    dsimp only
    by_cases hmany : d.nodes.length * 100 < p.followed + 1
    · simp only [if_pos hmany, Except.map]
    · simp only [if_neg hmany, Except.map_bind]
      congr 1
      funext ⟨node, m, inside⟩
      cases content node m inside <;> rfl
  | _ => rfl

/-- What is done to a value makes no difference to whether the text is one document. -/
theorem Reader.run_map (read : Reader α) (k : α → β) (text : String) :
    (read.map k).run text = (read.run text).map k := by
  unfold Reader.run Reader.map
  dsimp only
  cases read (Document.ofText text) .root ⟨(Document.ofText text).nodes, 0⟩ with
  | error f => rfl
  | ok r =>
    simp only [Except.map, Except.ok_bind]
    cases (Document.ofText text).fault with
    | some f => rfl
    | none => cases (Document.ofText text).isLast <;> rfl

theorem wrongType_map (expected : String) (node : Node) (k : α → β) :
    (wrongType expected node : Except Fault β) = (wrongType expected node).map k := by
  unfold wrongType
  split
  · split <;> rfl
  all_goals rfl

/-- The second field changes the image of a record as the first one changes the record. -/
inductive Field.Along (k : σ → τ) : Field σ → Field τ → Prop where
  | mk {α : Type} (name : String) (read : Reader α) (set : α → σ → σ) (set' : α → τ → τ)
      (h : ∀ a r, k (set a r) = set' a (k r)) :
      Along k ⟨name, read.map set⟩ ⟨name, read.map set'⟩

namespace Layout

/-- The second layout has the same fields as the first, for the images of its records. -/
structure Along (k : σ → τ) (l : Layout σ) (l' : Layout τ) : Prop where
  title : l'.title = l.title
  optional : l'.optional = l.optional
  initial : l'.initial = k l.initial
  fields : List.Forall₂ (Field.Along k) l.fields l'.fields

variable {k : σ → τ} {l : Layout σ} {l' : Layout τ}

/-- The same names are found in both layouts. -/
theorem find?_along {fs : List (Field σ)} {fs' : List (Field τ)}
    (h : List.Forall₂ (Field.Along k) fs fs') (p : String → Bool) :
    Option.Rel (Field.Along k) (fs.find? fun f => p f.name) (fs'.find? fun f => p f.name) := by
  induction h with
  | nil => exact .none
  | cons hf _ ih =>
    cases hf with
    | mk name read set set' hset =>
      cases hp : p name with
      | true =>
        simp only [List.find?_cons, hp]
        exact .some (.mk name read set set' hset)
      | false => simpa only [List.find?_cons, hp] using ih

theorem Along.finish (h : l.Along k l') (seen : List String) (record : σ) :
    l'.finish seen (k record) = (l.finish seen record).map k := by
  have hmissing := find?_along h.fields fun name => !seen.contains name
  unfold Layout.finish
  rw [h.optional]
  generalize l.fields.find? (fun f => !seen.contains f.name) = f? at hmissing
  generalize l'.fields.find? (fun f => !seen.contains f.name) = f?' at hmissing
  cases hmissing with
  | none => rfl
  | some hf =>
    cases hf
    dsimp only
    split <;> rfl

/-- The members are read from the same positions, whatever they are read into. The induction is on
the fuel, with the image of the record as the record of the second layout. -/
theorem Along.readMembers (h : l.Along k l') (d : Document) (path : Path) (fuel : Nat)
    (seen : List String) (record : σ) (p : Position) :
    l'.readMembers d path fuel seen (k record) p =
      (l.readMembers d path fuel seen record p).map (onValue k) := by
  induction fuel generalizing seen record p with
  | zero => rfl
  | succ fuel ih =>
    rw [Layout.readMembers.eq_def, Layout.readMembers.eq_def]
    dsimp only
    split
    · rw [h.finish]
      cases l.finish seen record <;> rfl
    · rw [Except.map_bind]
      congr 1
      funext r
      have hfield := find?_along h.fields (· == r.1)
      generalize l.fields.find? (fun f => f.name == r.1) = f? at hfield
      generalize l'.fields.find? (fun f => f.name == r.1) = f?' at hfield
      cases hfield with
      | none =>
        dsimp only
        rw [Except.map_bind]
        congr 1
        funext p
        exact ih seen record p
      | some hf =>
        cases hf with
        | mk name read set set' hset =>
          dsimp only
          split
          · rfl
          · unfold Reader.map
            cases read d (memberPath path p) r.2 with
            | error f => rfl
            | ok change =>
              -- the field has changed the image as it has changed the record
              change l'.readMembers d path fuel _ (set' change.1 (k record)) change.2 =
                (l.readMembers d path fuel _ (set change.1 record) change.2).map (onValue k)
              rw [← hset]
              exact ih _ _ _

/-- What is read by the second layout is the image of what is read by the first. -/
theorem Along.read (h : l.Along k l') (levels : Nat) :
    l'.read levels = (l.read levels).map k := by
  funext d path p
  unfold Layout.read Reader.map
  rw [← Document.read_map]
  congr 1
  funext node m p
  unfold placing
  rw [← Except.mapError_map]
  congr 1
  split
  · split
    · rfl
    · rw [h.initial, h.readMembers]
  · split
    · rw [h.initial, h.finish]
      cases l.finish [] l.initial <;> rfl
    · rw [h.title]
      exact wrongType_map l.title _ (onValue k)

end Layout
end Yaml
end InjectionGrammar
