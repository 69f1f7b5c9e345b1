import InjectionGrammar.Session

/-! Composed sessions, and sessions that only look at files. -/
namespace InjectionGrammar

/-- A path that leads to something in a file tree, if there is one. -/
def FileTree.existing? (t : FileTree) (path : Option String) : Option String :=
  path.filter t.contains

namespace Session
variable {α β ε : Type} {t : FileTree}

/-- The second session starts on the files that the first one leaves, and its events come later. -/
theorem run_bind (s : Session α) (k : α → Session β) (t : FileTree) :
    (s >>= k).run t =
      ⟨((k (s.run t).result).run (s.run t).files).result,
        ((k (s.run t).result).run (s.run t).files).files,
        (s.run t).events ++ ((k (s.run t).result).run (s.run t).files).events⟩ := by
  change (s.bind k).run t = _
  induction s generalizing t with
  | done a => rfl
  | fileExists path next ih => exact ih _ _
  | readText path next ih => exact ih _ _
  | createParents path next ih => exact ih _ _
  | writeText path text next ih => exact ih _ _
  | report event next ih => simp only [bind, run, ih, List.cons_append]

@[simp] theorem result_bind (s : Session α) (k : α → Session β) :
    ((s >>= k).run t).result = ((k (s.run t).result).run (s.run t).files).result := by
  rw [run_bind]

@[simp] theorem files_bind (s : Session α) (k : α → Session β) :
    ((s >>= k).run t).files = ((k (s.run t).result).run (s.run t).files).files := by
  rw [run_bind]

@[simp] theorem run_pure (a : α) : (pure a : Session α).run t = ⟨a, t, []⟩ := rfl

@[simp] theorem run_contain (path : String) :
    (Files.contain path).run t = ⟨t.contains path, t, []⟩ := rfl

@[simp] theorem run_readText (path : String) :
    (Files.readText path).run t = ⟨t.readText path, t, []⟩ := rfl

@[simp] theorem run_present? (path : Option String) :
    (Files.present? path).run t = ⟨t.existing? path, t, []⟩ := by
  cases path with
  | none => rfl
  | some path =>
    cases h : t.contains path <;>
      simp [Files.present?, run_bind, FileTree.existing?, Option.filter, h]

/-- Nothing comes of a file but what its text means, and nothing is reported. -/
theorem run_readAs (path : String) (unreadable : FileFault → ε) (meaning : String → Except ε α) :
    (Files.readAs path unreadable meaning).run t =
      ⟨(t.readText path).mapError unreadable >>= meaning, t, []⟩ := by
  simp only [Files.readAs, run_bind, run_readText]
  cases t.readText path <;> rfl

@[simp] theorem run_createParents (path : String) :
    (Files.createParents path).run t =
      ⟨(t.createParents path).2, (t.createParents path).1, []⟩ := rfl

@[simp] theorem run_writeText (path text : String) :
    (Files.writeText path text).run t =
      ⟨(t.writeText path text).2, (t.writeText path text).1, []⟩ := rfl

@[simp] theorem run_report (event : Log.Event) :
    (Log.report event).run t = ⟨(), t, [event]⟩ := rfl

@[simp] theorem run_reportAll (events : List Log.Event) :
    (Log.reportAll events).run t = ⟨(), t, events⟩ := by
  induction events with
  | nil => rfl
  | cons e es ih => simp only [Log.reportAll, run, ih]

/-- A session that leaves every file tree as it is. -/
def ReadOnly (s : Session α) : Prop := ∀ t, (s.run t).files = t

theorem readOnly_pure (a : α) : (pure a : Session α).ReadOnly := fun _ => rfl

theorem readOnly_readText (path : String) : (Files.readText path).ReadOnly := fun _ => rfl

theorem readOnly_readAs (path : String) (unreadable : FileFault → ε)
    (meaning : String → Except ε α) : (Files.readAs path unreadable meaning).ReadOnly := fun _ =>
  congrArg Outcome.files (run_readAs path unreadable meaning)

theorem readOnly_report (event : Log.Event) : (Log.report event).ReadOnly := fun _ => rfl

theorem ReadOnly.bind {s : Session α} {k : α → Session β} (hs : s.ReadOnly)
    (hk : ∀ a, (k a).ReadOnly) : (s >>= k).ReadOnly := by
  intro t
  rw [files_bind, hk, hs]

end Session
end InjectionGrammar
