import InjectionGrammar.Proofs.Outcome
import InjectionGrammar.Yaml.Reader
import Mathlib.Data.List.Forall2

/-! Readers on the nodes that they are made for. -/
namespace InjectionGrammar
namespace Yaml
variable {α β σ : Type} {read : Reader α} {nodes : List Node} {a : α} {levels : Nat}

/-- The reader takes these nodes for this value, whatever stands behind them. -/
def Reads (read : Reader α) (nodes : List Node) (a : α) : Prop :=
  ∀ (d : Document) (path : Path) (ns rest : List (Node × Mark)) (followed : Nat),
    ns.map (·.1) = nodes → read d path ⟨ns ++ rest, followed⟩ = .ok (a, ⟨rest, followed⟩)

/-- Nodes that begin with a node of their own. -/
def AreValue (nodes : List Node) : Prop :=
  ∃ node rest, nodes = node :: rest ∧ node ≠ .sequenceEnd ∧ node ≠ .mappingEnd

/-- A whole text is read if its document consists of these nodes. -/
theorem Reads.run (h : Reads read nodes a) {text : String} {ns : List (Node × Mark)}
    (hnodes : ns.map (·.1) = nodes) (hdocument : Document.ofText text = ⟨ns, [], none, true⟩) :
    read.run text = .ok a := by
  have hread := h (Document.ofText text) .root ns [] 0 hnodes
  rw [List.append_nil] at hread
  have hns : (Document.ofText text).nodes = ns := by rw [hdocument]
  unfold Reader.run
  dsimp only
  rw [hns, hread, hdocument]
  rfl

theorem Reads.map (h : Reads read nodes a) (f : α → β) : Reads (read.map f) nodes (f a) := by
  intro d path ns rest followed hns
  rw [Reader.map, h d path ns rest followed hns]
  rfl

theorem Document.read_cons {node : Node} {m : Mark} {rest : List (Node × Mark)} {followed : Nat}
    {content : Node → Mark → Position → Except Fault (α × Position)}
    (h : ∀ slot, node ≠ .reference slot) (d : Document) :
    d.read ⟨(node, m) :: rest, followed⟩ content = content node m ⟨rest, followed⟩ := by
  cases node with
  | reference slot => exact absurd rfl (h slot)
  | _ => rfl

/-! Scalars. -/

theorem reads_string (expected text : String) (style : Style) (tag : Option String) :
    Reads (readString expected) [.scalar text style tag] text := by
  intro d path ns rest followed hns
  obtain ⟨⟨node, m⟩, rfl, rfl⟩ := List.map_eq_singleton_iff.1 hns
  rfl

theorem reads_present {expected text : String} {style : Style}
    (h : style = .plain → text.isEmpty = false ∧ isNull text = false) :
    Reads (readOptional expected) [.scalar text style none] (some text) := by
  intro d path ns rest followed hns
  obtain ⟨⟨node, m⟩, rfl, rfl⟩ := List.map_eq_singleton_iff.1 hns
  cases style with
  | plain =>
    obtain ⟨hempty, hnull⟩ := h rfl
    rw [readOptional, List.singleton_append, Document.read_cons]
    · simp [hempty, hnull, placing, Except.mapError]
    · exact fun _ => nofun
  | _ => rfl

/-! Sequences. -/

/-- The items are read one after the other. Each takes at least one node, so that there is fuel
for all of them. -/
theorem readItems_of_reads {item : Reader α} {parts : List (List Node)} {as : List α}
    (h : List.Forall₂ (fun nodes a => AreValue nodes ∧ Reads item nodes a) parts as)
    (d : Document) (path : Path) {ns : List (Node × Mark)}
    (hns : ns.map (·.1) = parts.flatten ++ [.sequenceEnd]) (rest : List (Node × Mark))
    (index followed : Nat) {fuel : Nat} (hfuel : ns.length < fuel + 1) :
    readItems item d path fuel index ⟨ns ++ rest, followed⟩ = .ok (as, ⟨rest, followed⟩) := by
  induction h generalizing ns index fuel with
  | nil =>
    obtain ⟨⟨node, m⟩, rfl, rfl⟩ := List.map_eq_singleton_iff.1 hns
    obtain ⟨fuel, rfl⟩ := Nat.exists_eq_succ_of_ne_zero (n := fuel) (by simp at hfuel; omega)
    rfl
  | @cons nodes a parts as hitem _ ih =>
    obtain ⟨⟨node, nodes, rfl, hend, -⟩, hreads⟩ := hitem
    rw [List.flatten_cons, List.append_assoc] at hns
    obtain ⟨us, vs, rfl, hus, hvs⟩ := List.map_eq_append_iff.1 hns
    obtain ⟨⟨node, m⟩, us, rfl, rfl, rfl⟩ := List.map_eq_cons_iff.1 hus
    obtain ⟨fuel, rfl⟩ := Nat.exists_eq_succ_of_ne_zero (n := fuel) (by simp at hfuel; omega)
    have hitem := hreads d (.item path index) ((node, m) :: us) (vs ++ rest) followed rfl
    have hitems := ih hvs (index + 1) (show vs.length < fuel + 1 by simp at hfuel; omega)
    rw [readItems]
    simp only [List.cons_append, List.append_assoc] at hitem ⊢
    split
    · next heq =>
      cases heq
      exact absurd rfl hend
    · rw [hitem]
      simp only [Except.ok_bind]
      rw [hitems]
      rfl

theorem reads_list {item : Reader α} {parts : List (List Node)} {as : List α}
    (hlevels : levels ≠ 0)
    (h : List.Forall₂ (fun nodes a => AreValue nodes ∧ Reads item nodes a) parts as)
    (tag : Option String) :
    Reads (readList levels item) (.sequenceStart tag :: (parts.flatten ++ [.sequenceEnd])) as := by
  intro d path ns rest followed hns
  obtain ⟨⟨node, m⟩, ns, rfl, rfl, htail⟩ := List.map_eq_cons_iff.1 hns
  have hitems := readItems_of_reads h d path htail rest 0 followed
    (show ns.length < ns.length + rest.length + 1 + 1 by omega)
  rw [readList, List.cons_append, Document.read_cons]
  · simp [hlevels, hitems, placing, Except.mapError]
  · exact fun _ => nofun

/-! Records. -/

namespace Layout
variable {l : Layout σ} {key : String} {style : Style} {seen : List String}
  {record record' : σ}

/-- These nodes, the last of which ends a mapping, are the members that make the second record of
the first. -/
inductive Fits (l : Layout σ) : List String → σ → List Node → σ → Prop where
  | finish {seen : List String} {record record' : σ} (h : l.finish seen record = .ok record') :
      Fits l seen record [.mappingEnd] record'
  | field {seen : List String} {record record' : σ} {key : String} {style : Style}
      {nodes nodes' : List Node} {f : Field σ} {change : σ → σ}
      (hfind : l.fields.find? (·.name == key) = some f) (hseen : key ∉ seen)
      (hreads : Reads f.read nodes change)
      (h : Fits l (key :: seen) (change record) nodes' record') :
      Fits l seen record (.scalar key style none :: (nodes ++ nodes')) record'

theorem readMembers_of_fits (h : l.Fits seen record nodes record') (d : Document) (path : Path)
    {ns : List (Node × Mark)} (hns : ns.map (·.1) = nodes) (rest : List (Node × Mark))
    (followed : Nat) {fuel : Nat} (hfuel : ns.length < fuel + 1) :
    l.readMembers d path fuel seen record ⟨ns ++ rest, followed⟩ =
      .ok (record', ⟨rest, followed⟩) := by
  induction h generalizing ns fuel with
  | finish hfinish =>
    obtain ⟨⟨node, m⟩, rfl, rfl⟩ := List.map_eq_singleton_iff.1 hns
    obtain ⟨fuel, rfl⟩ := Nat.exists_eq_succ_of_ne_zero (n := fuel) (by simp at hfuel; omega)
    simp [readMembers, hfinish]
  | @field seen record record' key style nodes nodes' f change hfind hseen hreads _ ih =>
    obtain ⟨⟨node, m⟩, ns, rfl, rfl, htail⟩ := List.map_eq_cons_iff.1 hns
    obtain ⟨us, vs, rfl, hus, hvs⟩ := List.map_eq_append_iff.1 htail
    obtain ⟨fuel, rfl⟩ := Nat.exists_eq_succ_of_ne_zero (n := fuel) (by simp at hfuel; omega)
    have hkey := reads_string "field identifier" key style none d path
      [(.scalar key style none, m)] (us ++ (vs ++ rest)) followed rfl
    have hvalue := hreads d (.member path key) us (vs ++ rest) followed hus
    have hmembers := ih hvs (show vs.length < fuel + 1 by simp at hfuel; omega)
    simp only [List.cons_append, List.nil_append, List.append_assoc] at hkey ⊢
    simp [readMembers, memberPath, hkey, hfind, hseen, hvalue, hmembers]

theorem reads_of_fits (hlevels : levels ≠ 0) (h : l.Fits [] l.initial nodes record)
    (tag : Option String) : Reads (l.read levels) (.mappingStart tag :: nodes) record := by
  intro d path ns rest followed hns
  obtain ⟨⟨node, m⟩, ns, rfl, rfl, htail⟩ := List.map_eq_cons_iff.1 hns
  have hmembers := readMembers_of_fits h d path htail rest followed
    (show ns.length < ns.length + rest.length + 1 + 1 by omega)
  rw [Layout.read, List.cons_append, Document.read_cons]
  · simp [hlevels, hmembers, placing, Except.mapError]
  · exact fun _ => nofun

end Layout

/-! Values whose type shows in what they hold. -/

theorem reads_content_string (levels : Nat) (text : String) :
    Reads (readContent levels) [.scalar text .doubleQuoted none] (.string text) := by
  intro d path ns rest followed hns
  obtain ⟨⟨node, m⟩, rfl, rfl⟩ := List.map_eq_singleton_iff.1 hns
  cases levels <;> rfl

theorem reads_content_list {parts : List (List Node)} {cs : List Content}
    (h : List.Forall₂ (fun nodes c => AreValue nodes ∧ Reads (readContent levels) nodes c)
      parts cs) :
    Reads (readContent (levels + 1)) (.sequenceStart none :: (parts.flatten ++ [.sequenceEnd]))
      (.list cs) := by
  intro d path ns rest followed hns
  obtain ⟨⟨node, m⟩, ns, rfl, rfl, htail⟩ := List.map_eq_cons_iff.1 hns
  have hitems := readItems_of_reads h d path htail rest 0 followed
    (show ns.length < ns.length + rest.length + 1 + 1 by omega)
  rw [readContent, List.cons_append]
  dsimp only
  rw [Document.read_cons]
  · simp [hitems, placing, Except.mapError, Except.map]
  · exact fun _ => nofun

end Yaml
end InjectionGrammar
