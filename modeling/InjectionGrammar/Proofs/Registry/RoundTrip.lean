import InjectionGrammar.Proofs.Yaml.Flow.Nodes
import InjectionGrammar.Proofs.Yaml.Flow.Printing
import InjectionGrammar.Proofs.Yaml.Reading
import InjectionGrammar.Registry.Reading

/-! A registry is written in flow style, and is read back from each such text. -/
namespace InjectionGrammar
open Yaml
variable {α : Type} {levels : Nat}

namespace Yaml

theorem itemNodes_eq (vs : List Tree) :
    itemNodes vs = (vs.map Tree.nodes).flatten ++ [.sequenceEnd] := by
  induction vs with
  | nil => rfl
  | cons v vs ih => simp [itemNodes, ih]

theorem areValue_nodes (v : Tree) : AreValue v.nodes := by
  cases v with
  | scalar text => exact ⟨_, _, rfl, nofun, nofun⟩
  | sequence vs => exact ⟨_, _, rfl, nofun, nofun⟩
  | mapping ms => exact ⟨_, _, rfl, nofun, nofun⟩

theorem forall₂_nodes {read : Reader α} {β : Type} {write : β → Tree} {value : β → α}
    {items : List β} (h : ∀ x ∈ items, Reads read (write x).nodes (value x)) :
    List.Forall₂ (fun nodes a => AreValue nodes ∧ Reads read nodes a)
      ((items.map write).map Tree.nodes) (items.map value) := by
  rw [List.map_map, List.forall₂_map_left_iff, List.forall₂_map_right_iff, List.forall₂_same]
  exact fun x hx => ⟨areValue_nodes _, h x hx⟩

/-- A list is read from the sequence of what its items are read from. -/
theorem reads_sequence {read : Reader α} {write : α → Tree} {items : List α} (hlevels : levels ≠ 0)
    (h : ∀ x ∈ items, Reads read (write x).nodes x) :
    Reads (readList levels read) (Tree.sequence (items.map write)).nodes items := by
  have hitems := reads_list hlevels (forall₂_nodes h) none
  rw [List.map_id'] at hitems
  rw [Tree.nodes, itemNodes_eq]
  exact hitems

theorem reads_strings (hlevels : levels ≠ 0) (texts : List String) :
    Reads (readList levels (readString "a string")) (Tree.sequence (texts.map .scalar)).nodes
      texts :=
  reads_sequence hlevels fun text _ => reads_string "a string" text .doubleQuoted none

end Yaml

/-- A single scope as a string, scopes as a sequence. -/
def Source.tree : Source → Tree
  | one s => .scalar s
  | many ss => .sequence (ss.map .scalar)

def Language.tree (l : Language) : Tree :=
  .mapping [
    ("name", .scalar l.name),
    ("identifiers", .sequence (l.identifiers.map .scalar)),
    ("source", l.source.tree)]

def Registry.tree (r : Registry) : Tree :=
  .mapping [("languages", .sequence (r.languages.map Language.tree))]

theorem writes_strings (texts : List String) (rest : List Char) :
    Writes (.sequence (texts.map .scalar)) ((Tree.sequence (texts.map .scalar)).print rest)
      rest := by
  refine writes_sequence (fun v hv => ?_) rest
  obtain ⟨text, -, rfl⟩ := List.mem_map.1 hv
  exact writes_scalar text

theorem Language.writes_print (l : Language) (rest : List Char) :
    Writes l.tree (l.tree.print rest) rest := by
  have hsource : ∀ rest, Writes l.source.tree (l.source.tree.print rest) rest := by
    cases l.source with
    | one s => exact writes_scalar s
    | many ss => exact writes_strings ss
  refine writes_mapping ?_ rest
  simp only [List.forall_mem_cons]
  exact ⟨⟨by decide, writes_scalar l.name⟩, ⟨by decide, writes_strings l.identifiers⟩,
    ⟨by decide, hsource⟩, List.forall_mem_nil _⟩

theorem mapM_string? (ss : List String) :
    (ss.map Content.string).mapM Content.string? = some ss := by
  induction ss with
  | nil => rfl
  | cons s ss ih => simp [ih, Content.string?]

/-- Between quotes no scope is taken for anything else than a string. -/
theorem reads_source (levels : Nat) (s : Source) :
    Reads (readSource (levels + 1)) s.tree.nodes s := by
  have hcontent : ∃ c, Reads (readContent (levels + 1)) s.tree.nodes c ∧
      Source.ofContent? c = some s := by
    cases s with
    | one s => exact ⟨.string s, reads_content_string _ s, rfl⟩
    | many ss =>
      refine ⟨.list (ss.map .string), ?_, by rw [Source.ofContent?, mapM_string?]; rfl⟩
      rw [Source.tree, Tree.nodes, itemNodes_eq]
      exact reads_content_list (forall₂_nodes fun s _ => reads_content_string _ s)
  obtain ⟨c, hreads, hsource⟩ := hcontent
  intro d path ns rest followed hns
  simp [readSource, hreads d path ns rest followed hns, hsource]

theorem reads_language (l : Language) : Reads ((languageLayout (levels + 1)).read (levels + 2))
    l.tree.nodes l := by
  refine Layout.reads_of_fits (Nat.succ_ne_zero _) ?_ none
  have hname := (reads_string "a string" l.name .doubleQuoted none).map
    fun s (k : Language) => { k with name := s }
  have hidentifiers := (reads_strings (Nat.succ_ne_zero levels) l.identifiers).map
    fun ss (k : Language) => { k with identifiers := ss }
  have hsource := (reads_source levels l.source).map fun s (k : Language) => { k with source := s }
  exact .field rfl (by decide) hname (.field rfl (by decide) hidentifiers
    (.field rfl (by decide) hsource (.finish rfl)))

theorem reads_registry (r : Registry) : Reads (registryLayout.read depthLimit) r.tree.nodes r := by
  refine Layout.reads_of_fits (by decide) ?_ none
  have hlanguages : Reads (readList (depthLimit - 1)
      ((languageLayout (depthLimit - 3)).read (depthLimit - 2)))
      (Tree.sequence (r.languages.map Language.tree)).nodes r.languages :=
    reads_sequence (by decide) fun l _ => reads_language l
  have hchange := hlanguages.map fun ls (_ : Registry) => (⟨ls⟩ : Registry)
  exact .field rfl (by decide) hchange (.finish rfl)

namespace Registry

theorem writes_print (r : Registry) : Writes r.tree (r.tree.print []) [] := by
  refine writes_mapping ?_ []
  simp only [List.forall_mem_cons]
  refine ⟨⟨by decide, writes_sequence fun v hv => ?_⟩, List.forall_mem_nil _⟩
  obtain ⟨l, -, rfl⟩ := List.mem_map.1 hv
  exact l.writes_print

/-- Each text that writes a registry in flow style, whichever way it spells the strings, holds that
registry: it is read if it is valid, and otherwise refused for its first flaw. One such text
consists of printable ASCII characters. -/
theorem written_registries_are_read (r : Registry) :
    (Writes r.tree (r.tree.print []) [] ∧ ∀ c ∈ r.tree.print [], isPrintableAscii c = true) ∧
    ∀ s, Writes r.tree s [] →
      (r.validate = .ok () → ofText (String.ofList s) = .ok r) ∧
      (∀ f, r.validate = .error f → ofText (String.ofList s) = .error (.flawed f)) := by
  refine ⟨⟨r.writes_print, r.tree.isPrintableAscii_print nofun⟩, fun s hs => ?_⟩
  obtain ⟨ns, hns, hdocument⟩ := Document.ofText_of_writes hs
  have hrun := (reads_registry r).run hns hdocument
  refine ⟨fun hvalid => ?_, fun f hflaw => ?_⟩
  · simp [ofText, hrun, hvalid, Except.mapError]
  · simp [ofText, hrun, hflaw, Except.mapError]

/-- Strings that would be something else without quotes, one that needs codes and a list of one
scope; and behind that a language with an empty list of scopes. -/
theorem written_registries_are_read_of_words :
    let l : Language := ⟨"null", ["~", "\n\"ß"], .many ["1.0"]⟩
    let flawed : Language := ⟨"no", ["y"], .many []⟩
    let text (r : Registry) := String.ofList (r.tree.print [])
    text ⟨[l]⟩ = "\x7b\"languages\": [\x7b\"name\": \"null\", \"identifiers\": [\"~\", " ++
      "\"\\U0000000A\\U00000022\\U000000DF\"], \"source\": [\"1.0\"]\x7d]\x7d" ∧
    ofText (text ⟨[l]⟩) = .ok ⟨[l]⟩ ∧
    ofText (text ⟨[l, flawed]⟩) = .error (.flawed (.noSource "no")) := by
  intro l flawed text
  refine ⟨by decide +kernel, ?_, ?_⟩
  · have hwritten := written_registries_are_read ⟨[l]⟩
    exact (hwritten.2 _ hwritten.1.1).1 (by decide +kernel)
  · have hwritten := written_registries_are_read ⟨[l, flawed]⟩
    exact (hwritten.2 _ hwritten.1.1).2 _ (by decide +kernel)

end Registry
end InjectionGrammar
