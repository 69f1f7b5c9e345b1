import InjectionGrammar.Program
import InjectionGrammar.Proofs.Builder.Repository
import InjectionGrammar.Proofs.CommandLine.Reading
import InjectionGrammar.Proofs.Config.Given

/-!
Where the settings of a plan come from: the command line first, then the configuration file that the
run reads, then the defaults.
-/
namespace InjectionGrammar
open CommandLine (Arguments)

theorem Selector.ofScopes_ne_empty {scopes : List String} (h : scopes ≠ []) :
    ofScopes scopes ≠ "" := by
  unfold ofScopes
  match scopes, h with
  | [scope], _ => simp [clause]
  | scope :: next :: rest, _ => simp [clause, String.intercalate_cons_cons]

/-- Each setting of a plan is that of the command line, else that of the file, else the default. -/
structure Plan.Layered (a : Arguments) (g : Config.Given) (p : Plan) : Prop where
  scopeName : p.options.scopeName = (a.scopeName.or g.scopeName).getD Options.defaultScopeName
  targetScopes : p.options.targetScopes =
    (if a.targetScopes = [] then g.targetScopes else some a.targetScopes).getD
      Selector.defaultScopes
  stdout : p.destination = .stdout ↔ a.stdout = true
  file : ∀ path, p.destination = .file path ↔ a.stdout = false ∧ a.output.or g.output = some path
  languages : p.languages = a.languages
  check : p.check = a.check

/-- A list of no scopes is neither on the command line nor in the file. -/
theorem Plan.Layered.targetScopes_ne_nil {a : Arguments} {g : Config.Given} {p : Plan}
    (h : p.Layered a g) (hg : g.targetScopes ≠ some []) : p.options.targetScopes ≠ [] := by
  rw [h.targetScopes]
  by_cases ha : a.targetScopes = []
  · rw [if_pos ha]
    cases hscopes : g.targetScopes with
    | none => exact List.cons_ne_nil _ _
    | some scopes =>
      rintro rfl
      exact hg hscopes
  · rw [if_neg ha]
    exact ha

namespace CommandLine.Arguments
variable {a : Arguments} {c : Config} {g : Config.Given} {p : Plan} {d : Destination}

theorem plan?_eq_none :
    a.plan? c = none ↔ a.stdout = false ∧ a.output = none ∧ c.output = none := by
  unfold plan? destination?
  cases a.stdout <;> simp

theorem destination?_eq_some : a.destination? c = some d ↔
    a.stdout = true ∧ d = .stdout ∨
      a.stdout = false ∧ ∃ path, a.output.or c.output = some path ∧ d = .file path := by
  unfold destination?
  cases a.stdout with
  | true => simp [eq_comm]
  | false => simp only [Bool.false_eq_true, if_false, Option.map_eq_some_iff, false_and, true_and,
      false_or, eq_comm]

theorem layered_of_plan? (h : a.plan? g.complete = some p) : p.Layered a g := by
  obtain ⟨d, hd, rfl⟩ := Option.map_eq_some_iff.1 h
  refine ⟨?_, ?_, ?_, ?_, rfl, rfl⟩
  · cases a.scopeName <;> rfl
  · cases ht : a.targetScopes <;> rfl
  · obtain ⟨hs, rfl⟩ | ⟨hs, path, -, rfl⟩ := destination?_eq_some.1 hd <;> simp [hs]
  · obtain ⟨hs, rfl⟩ | ⟨hs, path, hpath, rfl⟩ := destination?_eq_some.1 hd
    · simp [hs]
    · rw [show g.complete.output = g.output from rfl] at hpath
      simp [hs, hpath]

end CommandLine.Arguments

namespace Program
variable {a : Arguments} {c : Config} {e : Environment} {t : FileTree} {words : List String}

/-- The configuration of a run is what its file gives, completed. Only the file of a user may be
nowhere, missing or no use. -/
theorem given_of_configFor (h : ((configFor a e).run t).result = .ok c) :
    ∃ g, c = g.complete ∧ ((a.config.or e.configFile).bind (Config.given? t) = some g ∨
      a.config = none ∧ e.configFile.bind (Config.given? t) = none ∧ g = {}) := by
  unfold configFor at h
  cases hconfig : a.config with
  | some path =>
    rw [hconfig] at h
    obtain ⟨g, hgiven, hc⟩ := Config.result_ofFile_eq_ok.1 h
    exact ⟨g, hc.symm, .inl hgiven⟩
  | none =>
    simp only [hconfig, Session.result_bind, Session.run_pure, Except.ok.injEq] at h
    rw [← h, Config.result_load]
    cases hgiven : e.configFile.bind (Config.given? t) with
    | none => exact ⟨{}, rfl, .inr ⟨rfl, rfl, rfl⟩⟩
    | some g => exact ⟨g, rfl, .inl hgiven⟩

/-- There is no plan just where neither the command line nor the file says where the grammar goes.
A plan takes each setting from the command line if it is there, else from the file, else from the
defaults. It always has target scopes, so that the selector of a grammar built by it is not empty,
and it never checks what it prints. -/
theorem plans_are_layered (h : CommandLine.parse words = .ok a)
    (hc : ((configFor a e).run t).result = .ok c) :
    ∃ g, c = g.complete ∧ ((a.config.or e.configFile).bind (Config.given? t) = some g ∨
        a.config = none ∧ e.configFile.bind (Config.given? t) = none ∧ g = {}) ∧
      (a.plan? c = none ↔ a.stdout = false ∧ a.output = none ∧ g.output = none) ∧
      ∀ p, a.plan? c = some p → p.Layered a g ∧ p.options.targetScopes ≠ [] ∧
        (∀ (r : Registry) (b : Grammar), r.grammar p.options = .ok b → b.injectionSelector ≠ "") ∧
        ¬(p.destination = .stdout ∧ p.check = true) := by
  obtain ⟨g, rfl, hg⟩ := given_of_configFor hc
  refine ⟨g, rfl, hg, Arguments.plan?_eq_none, fun p hp => ?_⟩
  have hlayered := Arguments.layered_of_plan? hp
  have hscopes : p.options.targetScopes ≠ [] := by
    apply hlayered.targetScopes_ne_nil
    obtain hfile | ⟨-, -, rfl⟩ := hg
    · obtain ⟨path, -, hgiven⟩ := Option.bind_eq_some_iff.1 hfile
      exact Config.targetScopes_of_given? hgiven
    · exact nofun
  refine ⟨hlayered, hscopes, fun r b hb => ?_, ?_⟩
  · rw [Registry.injectionSelector_of_grammar hb]
    exact Selector.ofScopes_ne_empty hscopes
  · rintro ⟨hd, hcheck⟩
    obtain ⟨-, -, -, hflags⟩ := CommandLine.parse_eq_ok.1 h
    rw [hlayered.stdout.1 hd, ← hlayered.check, hcheck] at hflags
    cases hflags

/-- A file that names a scope and a path, and no home: the path of the command line wins, and the
target scopes, which neither gives, are the default. -/
theorem plans_are_layered_of_partial :
    let words := ["-c", "c.yaml", "-o", "g.json"]
    let text := "scope_name: inline.mine\noutput: syntaxes/g.json"
    let e : Environment := {}
    let t := FileTree.put .empty ["", "c.yaml"] (.file (.text text))
    let a : Arguments := { config := some "c.yaml", output := some "g.json" }
    let g : Config.Given :=
      { scopeName := some "inline.mine", output := some "syntaxes/g.json" }
    let p : Plan := ⟨none, ⟨"inline.mine", ["source.yaml"]⟩, .file "g.json", false⟩
    CommandLine.parse words = .ok a ∧ Config.given? t "c.yaml" = some g ∧
      ((configFor a e).run t).result = .ok g.complete ∧ a.plan? g.complete = some p ∧
      p.Layered a g := by
  intro words text e t a g p
  have hparse : CommandLine.parse words = .ok a := rfl
  have hgiven : Config.given? t "c.yaml" = some g := by decide +kernel
  have hconfig : ((configFor a e).run t).result = .ok g.complete :=
    Config.result_ofFile_eq_ok.2 ⟨g, hgiven, rfl⟩
  obtain ⟨g', hcomplete, hg', -, hplans⟩ := plans_are_layered hparse hconfig
  obtain rfl : g = g' := by
    obtain hfile | ⟨hnone, -, -⟩ := hg'
    · rw [show a.config.or e.configFile = some "c.yaml" from rfl, Option.bind_some, hgiven] at hfile
      exact Option.some.inj hfile
    · cases hnone
  have hplan : a.plan? g.complete = some p := rfl
  exact ⟨hparse, hgiven, hconfig, hplan, (hplans p hplan).1⟩

end Program
end InjectionGrammar
