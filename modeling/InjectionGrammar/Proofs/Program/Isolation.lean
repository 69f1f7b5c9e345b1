import InjectionGrammar.Proofs.Program.Stages

/-! A run whose command line says everything does not depend on the environment, nor on the files of
the user to which the environment leads. -/
namespace InjectionGrammar

namespace CommandLine.Arguments
variable {a : Arguments}

theorem languages_of_plan? {c : Config} {p : Plan} (h : a.plan? c = some p) :
    p.languages = a.languages := by
  obtain ⟨d, -, rfl⟩ := Option.map_eq_some_iff.1 h
  rfl

/-- The command line comes before the configuration in every setting. -/
theorem plan?_of_masked (hs : a.scopeName.isSome) (ht : a.targetScopes ≠ [])
    (hd : a.output.isSome ∨ a.stdout = true) (c c' : Config) : a.plan? c = a.plan? c' := by
  obtain ⟨name, hname⟩ := Option.isSome_iff_exists.1 hs
  have hscopes : a.targetScopes.isEmpty = false := by simpa using ht
  have hdestination : a.destination? c = a.destination? c' := by
    unfold destination?
    rcases hd with ho | hstdout
    · obtain ⟨path, hpath⟩ := Option.isSome_iff_exists.1 ho
      simp [hpath]
    · simp [hstdout]
  simp only [plan?, hdestination, hname, hscopes, Option.getD_some, Bool.false_eq_true, if_false]

end CommandLine.Arguments

namespace Program
open CommandLine (Arguments)
variable {a : Arguments} {p : Plan} {words : List String}

/-- A registry that is asked for by its path is looked for nowhere else. -/
theorem execute_of_languages (hl : p.languages.isSome) (e e' : Environment) :
    execute e p = execute e' p := by
  obtain ⟨path, hpath⟩ := Option.isSome_iff_exists.1 hl
  unfold execute
  rw [hpath]
  rfl

theorem runArguments_of_config (hl : a.languages.isSome) (hc : a.config.isSome)
    (e e' : Environment) : runArguments e a = runArguments e' a := by
  obtain ⟨path, hpath⟩ := Option.isSome_iff_exists.1 hc
  have hconfig : configFor a e = configFor a e' := by
    unfold configFor
    rw [hpath]
  unfold runArguments
  rw [hconfig]
  congr 1
  funext r
  rcases r with f | c
  · rfl
  · cases hp : a.plan? c with
    | none => simp only [hp]
    | some p =>
      rw [← Arguments.languages_of_plan? hp] at hl
      simp only [hp, execute_of_languages hl e e']

/-- Without a path the configuration cannot fail: a file of the user that is no use is passed over. -/
theorem configFor_of_none (hc : a.config = none) (e : Environment) (t : FileTree) :
    ∃ c, ((configFor a e).run t).result = .ok c := by
  simp only [configFor, hc, Session.result_bind, Session.run_pure]
  exact ⟨_, rfl⟩

theorem runArguments_of_masked (hl : a.languages.isSome) (hc : a.config = none)
    (hs : a.scopeName.isSome) (ht : a.targetScopes ≠ [])
    (hd : a.output.isSome ∨ a.stdout = true) (e e' : Environment) (t : FileTree) :
    ((runArguments e a).run t).result = ((runArguments e' a).run t).result ∧
      ((runArguments e a).run t).files = ((runArguments e' a).run t).files := by
  obtain ⟨c, hconfig⟩ := configFor_of_none hc e t
  obtain ⟨c', hconfig'⟩ := configFor_of_none hc e' t
  -- the configurations may differ; the plans that are made with them do not
  have hplan := Arguments.plan?_of_masked hs ht hd c c'
  simp only [runArguments, Session.result_bind, Session.files_bind, hconfig, hconfig', hplan,
    configFor_readOnly a e t, configFor_readOnly a e' t]
  cases hp : a.plan? c' with
  | none => exact ⟨rfl, rfl⟩
  | some p =>
    rw [← Arguments.languages_of_plan? hp] at hl
    simp only [execute_of_languages hl e e', and_self]

/-- Where the command line names a registry, and either a configuration or all that one would be
asked for, two runs on the same files end in the same way whatever their environments: with the same
exit code, output and errors, and the same files. They may differ in what they log, if no
configuration is named. -/
theorem explicit_inputs_isolate (h : CommandLine.parse words = .ok a) (hl : a.languages.isSome)
    (hc : a.config.isSome ∨ a.scopeName.isSome ∧ a.targetScopes ≠ [] ∧
      (a.output.isSome ∨ a.stdout = true)) (e e' : Environment) (t : FileTree) :
    ((run e words).run t).result = ((run e' words).run t).result ∧
      ((run e words).run t).files = ((run e' words).run t).files ∧
      (a.config.isSome → ((run e words).run t).events = ((run e' words).run t).events) := by
  rw [run_of_parse h, run_of_parse h]
  by_cases hconfig : a.config.isSome
  · rw [runArguments_of_config hl hconfig e e']
    exact ⟨rfl, rfl, fun _ => rfl⟩
  · obtain ⟨hs, ht, hd⟩ := hc.resolve_left hconfig
    have hnone : a.config = none := by simpa using hconfig
    obtain ⟨hresult, hfiles⟩ := runArguments_of_masked hl hnone hs ht hd e e' t
    exact ⟨hresult, hfiles, fun hsome => absurd hsome hconfig⟩

/-- A configuration of the user that is no text changes nothing against there being none. -/
theorem explicit_inputs_isolate_of_masked :
    let words := ["-l", "l.yaml", "--scope-name", "inline.sql", "-t", "source.yaml", "-o", "g.json"]
    let e : Environment := { home := some "home" }
    let e' : Environment := { home := some "home", configHome := some "" }
    let t := ((FileTree.put .empty ["", "l.yaml"] (.file (.text "languages: []"))).put
      ["", "tagged-grammar"] .directory).put ["", "tagged-grammar", "config.yaml"]
        (.file (.data [0xff]))
    e.configFile.map t.readText = some (.error .notFound) ∧
      e'.configFile.map t.readText = some (.error .notText) ∧
      ((run e words).run t).result = ((run e' words).run t).result ∧
      ((run e words).run t).files = ((run e' words).run t).files := by
  intro words e e' t
  have hparse : CommandLine.parse words = .ok {
      languages := some "l.yaml"
      output := some "g.json"
      targetScopes := ["source.yaml"]
      scopeName := some "inline.sql" } := rfl
  obtain ⟨hresult, hfiles, -⟩ := explicit_inputs_isolate hparse rfl
    (.inr ⟨rfl, List.cons_ne_nil _ _, .inl rfl⟩) e e' t
  exact ⟨by decide +kernel, by decide +kernel, hresult, hfiles⟩

end Program
end InjectionGrammar
