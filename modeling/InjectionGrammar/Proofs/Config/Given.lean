import InjectionGrammar.Proofs.Loading
import InjectionGrammar.Proofs.Yaml.Layout

/-!
What a configuration file gives, with a value for a setting only where the file has one. A
configuration is that, completed with the defaults.
-/
namespace InjectionGrammar
namespace Config
open Yaml

structure Given where
  scopeName : Option String := none
  targetScopes : Option (List String) := none
  output : Option String := none
  deriving DecidableEq, Repr

namespace Given

/-- The configuration with the defaults for what is not given. -/
def complete (g : Given) : Config where
  scopeName := g.scopeName.getD Options.defaultScopeName
  targetScopes := g.targetScopes.getD Selector.defaultScopes
  output := g.output

/-- The settings of a configuration, read without defaults. -/
def layout : Layout Given where
  title := "struct GeneratorConfig"
  optional := true
  initial := {}
  fields := [
    ⟨"scope_name", (readString "a string").map fun s g => { g with scopeName := some s }⟩,
    ⟨"target_scopes", (readList (depthLimit - 1) (readString "a string")).map fun ss g =>
      { g with targetScopes := some ss }⟩,
    ⟨"output", (readOptional "path string").map fun s g => { g with output := s }⟩]

/-- What a text gives, if it is a configuration. A list of no scopes is none. -/
def ofText? (text : String) : Option Given :=
  ((layout.read depthLimit).run text).toOption.filter (·.targetScopes ≠ some [])

theorem layout_along : layout.Along complete Config.layout where
  title := rfl
  optional := rfl
  initial := rfl
  fields := .cons (.mk _ _ _ _ fun _ _ => rfl) <| .cons (.mk _ _ _ _ fun _ _ => rfl) <|
    .cons (.mk _ _ _ _ fun _ _ => rfl) .nil

theorem run_layout (text : String) :
    (Config.layout.read depthLimit).run text =
      ((layout.read depthLimit).run text).map complete := by
  rw [layout_along.read, Reader.run_map]

theorem targetScopes_complete (g : Given) :
    g.complete.targetScopes = [] ↔ g.targetScopes = some [] := by
  cases hg : g.targetScopes <;> simp [complete, hg, Selector.defaultScopes]

theorem targetScopes_of_ofText? {text : String} {g : Given} (h : ofText? text = some g) :
    g.targetScopes ≠ some [] := by
  simpa using (Option.filter_eq_some_iff.1 h).2

end Given

/-- What the file at a path gives, if it can be read and is a configuration. -/
def given? (t : FileTree) (path : String) : Option Given :=
  (t.readText path).toOption.bind Given.ofText?

variable {t : FileTree} {path : String} {g : Given} {c : Config}

theorem targetScopes_of_given? (h : given? t path = some g) : g.targetScopes ≠ some [] := by
  obtain ⟨text, -, h⟩ := Option.bind_eq_some_iff.1 h
  exact Given.targetScopes_of_ofText? h

theorem toOption_ofText (text : String) :
    (ofText text).toOption = (Given.ofText? text).map Given.complete := by
  unfold ofText Given.ofText?
  rw [Given.run_layout]
  cases (Given.layout.read depthLimit).run text with
  | error f => rfl
  | ok g =>
    by_cases hg : g.targetScopes = some []
    · have hc := (Given.targetScopes_complete g).2 hg
      simp [Except.map, Except.mapError, Except.toOption, Option.filter, hc, hg]
    · have hc := mt (Given.targetScopes_complete g).1 hg
      simp [Except.map, Except.mapError, Except.toOption, Option.filter, pure, Except.pure, hc, hg]

theorem toOption_ofFile (t : FileTree) (path : String) :
    ((ofFile path).run t).result.toOption = (given? t path).map Given.complete := by
  rw [run_ofFile, given?, Option.map_bind]
  simp only [Except.toOption_bind, Except.toOption_mapError, toOption_ofText]
  rfl

theorem result_ofFile_eq_ok : ((ofFile path).run t).result = .ok c ↔
    ∃ g, given? t path = some g ∧ g.complete = c := by
  rw [← Option.map_eq_some_iff, ← toOption_ofFile]
  cases ((ofFile path).run t).result <;> simp [Except.toOption]

/-- A path that leads nowhere gives nothing. -/
theorem given?_of_missing (h : t.contains path = false) : given? t path = none := by
  unfold FileTree.contains at h
  unfold given? FileTree.readText
  cases hf : t.find path with
  | error f => rfl
  | ok entry => simp [hf, Except.isOk, Except.toBool] at h

theorem bind_given? (t : FileTree) (path : Option String) :
    path.bind (given? t) = (t.existing? path).bind (given? t) := by
  cases path with
  | none => rfl
  | some path =>
    cases hc : t.contains path with
    | true => rw [FileTree.existing?, Option.filter_some_pos hc]
    | false =>
      rw [FileTree.existing?, Option.filter_some_neg (by simp [hc])]
      exact given?_of_missing hc

/-- A user has the defaults for all that their file does not give, if they have one. -/
theorem result_load (e : Environment) (t : FileTree) :
    ((load e).run t).result = ((e.configFile.bind (given? t)).getD {}).complete := by
  rw [bind_given?]
  cases hm : t.existing? e.configFile with
  | none =>
    rw [load_of_missing hm]
    rfl
  | some path =>
    rw [Option.bind_some]
    have hfile := toOption_ofFile t path
    cases hr : ((ofFile path).run t).result with
    | error p =>
      rw [hr] at hfile
      have hgiven : given? t path = none := Option.map_eq_none_iff.1 hfile.symm
      rw [run_load_error hm hr, hgiven]
      rfl
    | ok c =>
      rw [hr] at hfile
      obtain ⟨g, hgiven, hc⟩ := Option.map_eq_some_iff.1 hfile.symm
      rw [run_load_ok hm hr, hgiven]
      exact hc.symm

end Config
end InjectionGrammar
