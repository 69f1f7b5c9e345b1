import InjectionGrammar.Program
import InjectionGrammar.Proofs.Loading
import InjectionGrammar.Proofs.Registry.Validation

/-! The stages of a run: what it reads, what it builds from that, and what it delivers. -/
namespace InjectionGrammar
namespace Program
open CommandLine (Arguments)
variable {e : Environment} {a : Arguments} {t : FileTree} {p : Plan} {g : Grammar}

theorem run_of_parse {words : List String} (h : CommandLine.parse words = .ok a) :
    run e words = runArguments e a := by
  simp [run, h]

theorem configFor_readOnly (a : Arguments) (e : Environment) :
    (configFor a e).ReadOnly := by
  unfold configFor
  cases a.config with
  | some path => exact Session.readOnly_readAs path _ _
  | none => exact (Config.load_readOnly e).bind fun _ => Session.readOnly_pure _

/-- A run gets as far as delivering a grammar by a plan. -/
def Builds (e : Environment) (a : Arguments) (t : FileTree) (p : Plan)
    (g : Grammar) : Prop :=
  ∃ c r, ((configFor a e).run t).result = .ok c ∧ a.plan? c = some p ∧
    ((Registry.load e p.languages).run t).result = .ok r ∧ r.grammar p.options = .ok g

theorem run_of_builds (h : Builds e a t p g) :
    ((runArguments e a).run t).result = ((deliver p g).run t).result ∧
      ((runArguments e a).run t).files = ((deliver p g).run t).files := by
  obtain ⟨c, r, hc, hp, hr, hg⟩ := h
  simp only [runArguments, Session.result_bind, Session.files_bind, hc, hp, execute,
    configFor_readOnly a e t, hr, Registry.load_readOnly e p.languages t, Session.run_reportAll, hg,
    and_self]

/-- Without flags a plan names a file to write. -/
theorem file_of_builds (hs : a.stdout = false) (hc : a.check = false) (h : Builds e a t p g) :
    p.check = false ∧ ∃ path, p.destination = .file path := by
  obtain ⟨c, r, -, hp, -, -⟩ := h
  obtain ⟨d, hd, rfl⟩ := Option.map_eq_some_iff.1 hp
  simp only [Arguments.destination?, hs, Bool.false_eq_true, if_false] at hd
  obtain ⟨path, -, rfl⟩ := Option.map_eq_some_iff.1 hd
  exact ⟨hc, path, rfl⟩

theorem exitCode_write {path : String} (hd : p.destination = .file path) (hc : p.check = false) :
    (((deliver p g).run t).result.exitCode = 0 ↔ ((g.write path).run t).result = .ok ()) ∧
      ((deliver p g).run t).files = ((g.write path).run t).files := by
  simp only [deliver, hd, hc, Bool.false_eq_true, if_false, Session.result_bind,
    Session.files_bind]
  rcases ((g.write path).run t).result with f | u <;>
    simp [Report.ofFailure, Report.success]

/-- A run with accepted arguments ends before it has a grammar: it finds no configuration, no place
for the grammar, or no registry. -/
inductive Stops (e : Environment) (a : Arguments) (t : FileTree) : Prop where
  | unconfigured {f : Config.FileProblem} (hc : ((configFor a e).run t).result = .error f)
  | unplanned {c : Config} (hc : ((configFor a e).run t).result = .ok c) (hp : a.plan? c = none)
  | unregistered {c : Config} {p : Plan} {f : Registry.Fault}
      (hc : ((configFor a e).run t).result = .ok c) (hp : a.plan? c = some p)
      (hr : ((Registry.load e p.languages).run t).result = .error f)

theorem run_of_stops (h : Stops e a t) :
    ((runArguments e a).run t).result.exitCode = 1 ∧ ((runArguments e a).run t).files = t := by
  have hconfig := configFor_readOnly a e t
  cases h with
  | unconfigured hc =>
    simp only [runArguments, Session.result_bind, Session.files_bind, hc]
    exact ⟨rfl, hconfig⟩
  | unplanned hc hp =>
    simp only [runArguments, Session.result_bind, Session.files_bind, hc, hp]
    exact ⟨rfl, hconfig⟩
  | @unregistered c p f hc hp hr =>
    have hload := Registry.load_readOnly e p.languages t
    simp only [runArguments, execute, Session.result_bind, Session.files_bind, hc, hp, hconfig, hr]
    exact ⟨rfl, hload⟩

/-- A registry that has been read is valid, so nothing but a stage before it keeps a run from having
a grammar. -/
theorem stops_or_builds (e : Environment) (a : Arguments) (t : FileTree) :
    Stops e a t ∨ ∃ p g, Builds e a t p g := by
  cases hc : ((configFor a e).run t).result with
  | error f => exact .inl (.unconfigured hc)
  | ok c =>
    cases hp : a.plan? c with
    | none => exact .inl (.unplanned hc hp)
    | some p =>
      cases hr : ((Registry.load e p.languages).run t).result with
      | error f => exact .inl (.unregistered hc hp hr)
      | ok r =>
        obtain ⟨g, hg⟩ := Registry.grammar_of_validate (o := p.options)
          (Registry.validate_of_load hr)
        exact .inr ⟨p, g, c, r, hc, hp, hr, hg⟩

theorem not_stops_of_builds (h : Builds e a t p g) : ¬Stops e a t := by
  obtain ⟨c, r, hc, hp, hr, -⟩ := h
  intro hstops
  cases hstops with
  | unconfigured hc' => simp [hc'] at hc
  | unplanned hc' hp' =>
    obtain rfl := Except.ok.inj (hc.symm.trans hc')
    simp [hp'] at hp
  | unregistered hc' hp' hr' =>
    obtain rfl := Except.ok.inj (hc.symm.trans hc')
    obtain rfl := Option.some.inj (hp.symm.trans hp')
    simp [hr'] at hr

/-- Where a user has no files of his own, the default configuration and the builtin registry make a
grammar. -/
theorem builds_of_missing (hconfig : t.existing? e.configFile = none)
    (hlanguages : t.existing? e.languagesFile = none) (hc : a.config = none)
    (hl : a.languages = none) (hp : a.plan? {} = some p) : ∃ g, Builds e a t p g := by
  obtain ⟨g, hg⟩ := Registry.grammar_of_validate (o := p.options) Registry.validate_builtin
  have hpl : p.languages = none := by
    obtain ⟨d, -, rfl⟩ := Option.map_eq_some_iff.1 hp
    exact hl
  refine ⟨g, {}, .builtin, ?_, hp, ?_, hg⟩
  · simp [configFor, hc, Config.load_of_missing hconfig]
  · rw [hpl]
    exact Registry.load_of_missing hlanguages

/-- A run that succeeds delivers something. -/
theorem builds_of_exitCode_eq_zero (h : ((runArguments e a).run t).result.exitCode = 0) :
    ∃ p g, Builds e a t p g := by
  rcases stops_or_builds e a t with hstops | hbuilds
  · rw [(run_of_stops hstops).1] at h
    cases h
  · exact hbuilds

end Program
end InjectionGrammar
