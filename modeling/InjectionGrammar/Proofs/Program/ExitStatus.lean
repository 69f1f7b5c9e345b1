import InjectionGrammar.Proofs.Program.Stages

/-! Runs end regularly: the registry that a run reads is one that a grammar can be built from. -/
namespace InjectionGrammar
namespace Program
variable {t : FileTree}

theorem exitCode_deliver (p : Plan) (g : Grammar) :
    ((deliver p g).run t).result.exitCode = 0 ∨ ((deliver p g).run t).result.exitCode = 1 := by
  unfold deliver
  cases p.destination with
  | stdout => exact .inl rfl
  | file path =>
    cases p.check with
    | true =>
      simp only [if_true, Session.result_bind]
      rcases ((g.isUpToDate path).run t).result with f | _ | _
      · exact .inr rfl
      · exact .inr rfl
      · exact .inl rfl
    | false =>
      simp only [Bool.false_eq_true, if_false, Session.result_bind]
      rcases ((g.write path).run t).result with f | u
      · exact .inr rfl
      · exact .inl rfl

/-- No run with accepted arguments meets a flaw in what it has read. -/
theorem exitCode_runArguments (e : Environment) (a : CommandLine.Arguments) :
    ((runArguments e a).run t).result.exitCode = 0 ∨
      ((runArguments e a).run t).result.exitCode = 1 := by
  rcases stops_or_builds e a t with hstops | ⟨p, g, hbuilds⟩
  · exact .inr (run_of_stops hstops).1
  · rw [(run_of_builds hbuilds).1]
    exact exitCode_deliver p g

theorem exitCode_run (e : Environment) (words : List String) (t : FileTree) :
    ((run e words).run t).result.exitCode ∈ [0, 1, 2] := by
  unfold run
  cases CommandLine.parse words with
  | error r => cases r <;> simp [Report.ofRejection]
  | ok a => rcases exitCode_runArguments (t := t) e a with h | h <;> simp [h]

/-- Validation accepts only what the builder accepts. On tidy languages both refuse the same
registries, at the same language for the same flaw. So no run ends in a flaw. -/
theorem validation_covers_building (r : Registry) (o : Options) :
    (r.validate = .ok () → ∃ g, r.grammar o = .ok g) ∧
    ((∀ l ∈ r.languages, l.Tidy) →
      (∀ f, r.validate = .error f ↔ r.grammar o = .error f) ∧
      ∀ f, r.validate = .error f → ∃ before l after, r.languages = before ++ l :: after ∧
        Registry.StopsAt Registry.validate before l f ∧
        Registry.StopsAt (·.grammar o) before l f) ∧
    ∀ e words t, ((run e words).run t).result.exitCode ∈ [0, 1, 2] := by
  refine ⟨Registry.grammar_of_validate, ?_, exitCode_run⟩
  intro ht
  refine ⟨fun f => (Registry.grammar_eq_error_iff ht).symm, ?_⟩
  intro f hf
  obtain ⟨before, l, after, heq, hstop⟩ := Registry.exists_stop_of_validate hf
  refine ⟨before, l, after, heq, hstop, Registry.stopsAt_grammar_of_validate ?_ hstop⟩
  intro l' hl'
  apply ht l'
  rw [heq]
  simp only [List.mem_append, List.mem_cons, List.not_mem_nil, or_false] at hl' ⊢
  tauto

/-- Of two languages of one name validation and the builder refuse the second. -/
theorem validation_covers_building_of_twins :
    (Registry.mk [⟨"sql", ["sql"], .one "source.sql"⟩, ⟨"sql", ["mysql"], .one "source.sql"⟩]
      ).grammar ⟨"inline.sql", ["source.yaml"]⟩ = .error (.duplicateName "sql") := by
  refine (((validation_covers_building _ _).2.1 ?_).1 _).1 rfl
  intro l hl
  simp only [List.mem_cons, List.not_mem_nil, or_false] at hl
  rcases hl with rfl | rfl <;> exact ⟨by decide, by decide⟩

end Program
end InjectionGrammar
