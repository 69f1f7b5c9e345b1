import InjectionGrammar.Config.Loading
import InjectionGrammar.Registry.Loading
import InjectionGrammar.Proofs.Outcome
import InjectionGrammar.Proofs.Session

/-! Loading only looks at files, and the registries that it yields are valid. -/
namespace InjectionGrammar
variable {e : Environment} {t : FileTree} {path : String}

namespace Config
variable {c : Config} {p : FileProblem}

theorem run_ofFile (t : FileTree) (path : String) :
    (ofFile path).run t = ⟨(t.readText path).mapError (.unreadable path) >>= fun text =>
      (ofText text).mapError (.unfit path), t, []⟩ :=
  Session.run_readAs path _ _

/-- Without a directory of configurations, or without the file in it, the defaults are taken, and
no warning is given. -/
theorem run_load_missing (h : t.existing? e.configFile = none) :
    ∃ event : Log.Event, event.level = .debug ∧ (load e).run t = ⟨{}, t, [event]⟩ := by
  unfold load
  cases hfile : e.configFile with
  | none => exact ⟨.configDirectoryMissing, rfl, rfl⟩
  | some path =>
    have hmissing : t.contains path = false := by
      simpa [FileTree.existing?, hfile] using h
    refine ⟨.configMissing path, rfl, ?_⟩
    simp [Session.run_bind, hmissing]

/-- A file that exists is read; where that fails the defaults are taken after all. -/
theorem run_load_found (h : t.existing? e.configFile = some path) :
    (load e).run t = match ((ofFile path).run t).result with
      | .ok c => ⟨c, t, [.configLoaded path]⟩
      | .error p => ⟨{}, t, [.configRejected p.message]⟩ := by
  obtain ⟨hfile, hpath⟩ := Option.filter_eq_some_iff.1 h
  simp only [load, hfile, Session.run_bind, Session.run_contain, hpath, if_true, run_ofFile]
  cases (t.readText path).mapError (FileProblem.unreadable path) >>= fun text =>
    (ofText text).mapError (.unfit path) <;> rfl

theorem run_load_ok (h : t.existing? e.configFile = some path)
    (hc : ((ofFile path).run t).result = .ok c) :
    (load e).run t = ⟨c, t, [.configLoaded path]⟩ := by
  rw [run_load_found h, hc]

theorem run_load_error (h : t.existing? e.configFile = some path)
    (hp : ((ofFile path).run t).result = .error p) :
    (load e).run t = ⟨{}, t, [.configRejected p.message]⟩ := by
  rw [run_load_found h, hp]

theorem load_readOnly (e : Environment) : (load e).ReadOnly := by
  intro t
  cases h : t.existing? e.configFile with
  | none =>
    obtain ⟨event, -, hrun⟩ := run_load_missing h
    rw [hrun]
  | some path =>
    cases hr : ((ofFile path).run t).result with
    | ok c => rw [run_load_ok h hr]
    | error p => rw [run_load_error h hr]

theorem load_of_missing (h : t.existing? e.configFile = none) : ((load e).run t).result = {} := by
  obtain ⟨event, -, hrun⟩ := run_load_missing h
  rw [hrun]

end Config

namespace Registry

theorem run_ofFile (t : FileTree) (path : String) :
    (ofFile path).run t = ⟨(t.readText path).mapError (.unreadable path) >>= ofText, t, []⟩ :=
  Session.run_readAs path _ _

theorem run_load_some (e : Environment) (t : FileTree) (path : String) :
    (load e (some path)).run t =
      ⟨((ofFile path).run t).result, t, [.registryRequested path]⟩ := by
  simp [load, Session.run_bind, run_ofFile]

theorem run_load_found (h : t.existing? e.languagesFile = some path) :
    (load e none).run t = ⟨((ofFile path).run t).result, t, [.userRegistryFound path]⟩ := by
  simp [load, Session.run_bind, h, run_ofFile]

theorem run_load_missing (h : t.existing? e.languagesFile = none) :
    (load e none).run t = ⟨.ok builtin, t, [.builtinRegistryUsed]⟩ := by
  simp [load, Session.run_bind, h]

theorem load_readOnly (e : Environment) (path : Option String) : (load e path).ReadOnly := by
  intro t
  cases path with
  | some path => rw [run_load_some]
  | none =>
    cases h : t.existing? e.languagesFile with
    | some path => rw [run_load_found h]
    | none => rw [run_load_missing h]

theorem load_of_missing (h : t.existing? e.languagesFile = none) :
    ((load e none).run t).result = .ok builtin := by
  rw [run_load_missing h]

theorem validate_of_ofText {text : String} {r : Registry} (h : ofText text = .ok r) :
    r.validate = .ok () := by
  obtain ⟨s, -, h⟩ := Except.bind_eq_ok.1 h
  obtain ⟨u, hv, h⟩ := Except.bind_eq_ok.1 h
  cases h
  exact Except.mapError_eq_ok.1 hv

theorem validate_of_ofFile {r : Registry} (h : ((ofFile path).run t).result = .ok r) :
    r.validate = .ok () := by
  rw [run_ofFile] at h
  obtain ⟨text, -, hr⟩ := Except.bind_eq_ok.1 h
  exact validate_of_ofText hr

theorem validate_builtin : builtin.validate = .ok () := by rfl

theorem validate_of_load {path : Option String} {r : Registry}
    (h : ((load e path).run t).result = .ok r) : r.validate = .ok () := by
  cases path with
  | some path =>
    rw [run_load_some] at h
    exact validate_of_ofFile h
  | none =>
    cases hc : t.existing? e.languagesFile with
    | some path =>
      rw [run_load_found hc] at h
      exact validate_of_ofFile h
    | none =>
      rw [run_load_missing hc] at h
      cases h
      exact validate_builtin

end Registry
end InjectionGrammar
