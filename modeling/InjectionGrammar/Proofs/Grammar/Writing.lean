import InjectionGrammar.Proofs.Grammar.Distinction
import InjectionGrammar.Proofs.Grammar.File
import InjectionGrammar.Proofs.Grammar.RoundTrip

/-! Writing a grammar is all or nothing: the file holds the grammar and no other one, or every file is
as it was. -/
namespace InjectionGrammar
namespace Grammar
variable {t : FileTree} {path : String} {g g' : Grammar}

theorem isUpToDate_of_heldAt (h : g.HeldAt t path) :
    ((g'.isUpToDate path).run t).result = .ok (g.toText == g'.toText) := by
  simp [isUpToDate, heldAt_iff_readText.1 h]

/-- Just the grammar that has been written is up to date, however deep its rules nest. -/
theorem only_written_is_up_to_date (h : ((g.write path).run t).result = .ok ()) (g' : Grammar) :
    (((g'.isUpToDate path).run ((g.write path).run t).files).result = .ok true ↔ g' = g) ∧
    (g' ≠ g →
      ((g'.isUpToDate path).run ((g.write path).run t).files).result = .ok false) := by
  rw [isUpToDate_of_heldAt (heldAt_of_write h)]
  constructor
  · rw [Except.ok.injEq, beq_iff_eq, toText_injective.eq_iff, eq_comm]
  · intro hne
    rw [Except.ok.injEq, beq_eq_false_iff_ne, Ne, toText_injective.eq_iff]
    exact hne.symm

/-- A grammar that nests too deep to be read back, and the same one with another scope name. -/
theorem only_written_is_up_to_date_of_nest :
    let g := nest 100
    let t := ((g.write "d/g.json").run .empty).files
    ((g.write "d/g.json").run .empty).result = .ok () ∧
    ((g.isUpToDate "d/g.json").run t).result = .ok true ∧
    ((({ g with scopeName := "other" } : Grammar).isUpToDate "d/g.json").run t).result =
      .ok false := by
  intro g t
  have hwritten : ((g.write "d/g.json").run .empty).result = .ok () := rfl
  refine ⟨hwritten, (only_written_is_up_to_date hwritten g).1.2 rfl,
    (only_written_is_up_to_date hwritten _).2 ?_⟩
  intro heq
  have hname := congrArg scopeName heq
  simp [g, nest] at hname

/-- A write that succeeds leaves the grammar in the file at the path, and the directories on the way
of the path; other files are as they were. A write that fails leaves every file as it was. -/
theorem write_is_all_or_nothing (g : Grammar) (path : String) (t : FileTree) :
    let o := (g.write path).run t
    (o.result = .ok () →
      g.HeldAt o.files path ∧ o.files.Leads path ∧ t.DiffersAt o.files path g.toText ∧
      ∀ q c, o.files.locate path ≠ .ok q →
        (o.files.entry? q = some (.file c) ↔ t.entry? q = some (.file c))) ∧
    ∀ f, o.result = .error f →
      t.Extends o.files (o.files.Passes path) ∧
      ∀ q c, o.files.entry? q = some (.file c) ↔ t.entry? q = some (.file c) := by
  intro o
  constructor
  · intro h
    have hheld : g.HeldAt o.files path := heldAt_of_write h
    obtain ⟨p, hp, -⟩ := FileTree.find_eq_file.1 hheld
    have hdiffers : t.DiffersAt o.files path g.toText := g.differsAt_write path t
    exact ⟨hheld, FileTree.leads_of_locate hp, hdiffers, fun q c hq => hdiffers.entry?_eq_file hq⟩
  · intro f h
    exact ⟨extends_of_write_error h, entry?_of_write_error h⟩

/-- A write through a directory that it creates, and one that creates the same directory and then
finds a file in its way. -/
theorem write_is_all_or_nothing_of_blocked :
    let t := FileTree.empty.put ["", "f"] (.file (.text "kept"))
    let g : Grammar := ⟨[], "", [], "", .empty⟩
    ((g.write "a/../g.json").run t).result = .ok () ∧
    g.HeldAt ((g.write "a/../g.json").run t).files "a/../g.json" ∧
    ((g.write "a/../g.json").run t).files.entry? ["", "f"] = some (.file (.text "kept")) ∧
    ((g.write "a/../f/g.json").run t).result = .error .alreadyExists ∧
    ((g.write "a/../f/g.json").run t).files.entry? ["", "a"] = some .directory ∧
    ((g.write "a/../f/g.json").run t).files.entry? ["", "f"] = some (.file (.text "kept")) := by
  intro t g
  have hf : t.entry? ["", "f"] = some (.file (.text "kept")) := rfl
  have hwritten : ((g.write "a/../g.json").run t).result = .ok () := rfl
  have hblocked : ((g.write "a/../f/g.json").run t).result = .error .alreadyExists := rfl
  obtain ⟨hheld, -, -, hother⟩ := (write_is_all_or_nothing g "a/../g.json" t).1 hwritten
  obtain ⟨-, hsame⟩ := (write_is_all_or_nothing g "a/../f/g.json" t).2 _ hblocked
  refine ⟨hwritten, hheld, (hother _ _ ?_).2 hf, hblocked, rfl, (hsame _ _).2 hf⟩
  have hlocate : ((g.write "a/../g.json").run t).files.locate "a/../g.json" =
      .ok ["", "g.json"] := rfl
  rw [hlocate]
  simp

end Grammar
end InjectionGrammar
