import InjectionGrammar.Grammar.File
import InjectionGrammar.Proofs.FileTree.Creation
import InjectionGrammar.Proofs.Session

/-! Grammars in files: a grammar that has been written is up to date, and writing one that is
changes nothing. -/
namespace InjectionGrammar
namespace Grammar
variable {t t' : FileTree} {path : String} {g : Grammar}

/-- The file at a path holds the text of a grammar. -/
def HeldAt (g : Grammar) (t : FileTree) (path : String) : Prop :=
  t.find path = .ok (.file (.text g.toText))

theorem heldAt_iff_readText : g.HeldAt t path ↔ t.readText path = .ok g.toText := by
  unfold HeldAt FileTree.readText
  rcases t.find path with f | (_ | _) | _ <;> simp [bind, Except.bind]

theorem isUpToDate_readOnly (path : String) (g : Grammar) : (g.isUpToDate path).ReadOnly := by
  refine (Session.readOnly_readText path).bind fun r => ?_
  rcases r with f | text
  · cases f <;> first
      | exact Session.readOnly_pure _
      | exact (Session.readOnly_report _).bind fun _ => Session.readOnly_pure _
  · exact Session.readOnly_pure _

theorem isUpToDate_eq_true :
    ((g.isUpToDate path).run t).result = .ok true ↔ g.HeldAt t path := by
  rw [heldAt_iff_readText]
  simp only [isUpToDate, Session.result_bind, Session.run_readText]
  rcases t.readText path with f | text
  · cases f <;> simp
  · simp

theorem createParents_of_heldAt (h : g.HeldAt t path) : t.createParents path = (t, .ok ()) :=
  FileTree.createParents_of_find h

/-- Writing a grammar where it is changes nothing. -/
theorem write_of_heldAt (h : g.HeldAt t path) :
    ((g.write path).run t).result = .ok () ∧ ((g.write path).run t).files = t := by
  have hw : t.writeText path g.toText = (t, .ok ()) := by
    rw [FileTree.writeText, FileTree.write_of_find h]
  simp [write, createParents_of_heldAt h, hw]

/-- A write creates directories first. It fails with what has been created, or goes on to the file. -/
theorem write_cases (g : Grammar) (path : String) (t : FileTree) :
    (∃ f, ((g.write path).run t).result = .error f ∧
      ((g.write path).run t).files = (t.createParents path).1) ∨
    ((g.write path).run t).result = .ok () ∧
      (t.createParents path).1.write path (.text g.toText) = .ok ((g.write path).run t).files := by
  simp only [write, Session.result_bind, Session.files_bind, Session.run_createParents]
  rcases t.createParents path with ⟨t₁, f | u⟩
  · exact .inl ⟨f, rfl, rfl⟩
  · simp only [Session.result_bind, Session.files_bind, Session.run_writeText]
    cases hw : t₁.write path (.text g.toText) with
    | error f => exact .inl ⟨f, by simp [FileTree.writeText, hw], by simp [FileTree.writeText, hw]⟩
    | ok t₂ => exact .inr ⟨by simp [FileTree.writeText, hw], by simp [FileTree.writeText, hw]⟩

/-- A grammar that has been written is where it was written to. -/
theorem heldAt_of_write (h : ((g.write path).run t).result = .ok ()) :
    g.HeldAt ((g.write path).run t).files path := by
  rcases g.write_cases path t with ⟨f, hf, -⟩ | ⟨-, hw⟩
  · rw [hf] at h
    cases h
  · exact FileTree.find_of_write hw

/-- Writing a grammar changes one file at the most. -/
theorem differsAt_write (g : Grammar) (path : String) (t : FileTree) :
    t.DiffersAt ((g.write path).run t).files path g.toText := by
  have hparents := t.extends_createParents path
  rcases g.write_cases path t with ⟨f, -, hfiles⟩ | ⟨-, hw⟩
  · rw [hfiles]
    exact FileTree.differsAt_of_extends hparents
  · exact FileTree.differsAt_of_write hparents hw

/-- A write that fails has created directories at the most. -/
theorem extends_of_write_error {f : FileFault} (h : ((g.write path).run t).result = .error f) :
    t.Extends ((g.write path).run t).files (((g.write path).run t).files.Passes path) := by
  rcases g.write_cases path t with ⟨-, -, hfiles⟩ | ⟨hok, -⟩
  · rw [hfiles]
    exact t.extends_createParents path
  · rw [hok] at h
    cases h

theorem entry?_of_write_error {f : FileFault} (h : ((g.write path).run t).result = .error f)
    (q : FileTree.Place) (c : FileTree.Content) :
    ((g.write path).run t).files.entry? q = some (.file c) ↔ t.entry? q = some (.file c) :=
  (extends_of_write_error h).entry?_eq_file

end Grammar
end InjectionGrammar
