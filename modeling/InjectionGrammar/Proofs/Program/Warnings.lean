import InjectionGrammar.Proofs.Loading.Fallback
import InjectionGrammar.Proofs.Program.Stages

/-! What a run shows in its log unless the user asks for more: a configuration that is no use, and
the aliases that several languages claim. -/
namespace InjectionGrammar

namespace Session
variable {α β : Type} {t : FileTree}

theorem warnings_bind (s : Session α) (k : α → Session β) :
    ((s >>= k).run t).warnings =
      (s.run t).warnings ++ ((k (s.run t).result).run (s.run t).files).warnings := by
  rw [run_bind]
  exact List.filter_append ..

@[simp] theorem warnings_pure (a : α) : ((pure a : Session α).run t).warnings = [] := rfl

end Session

theorem Log.Event.line_tagClaimedTwice (c : Registry.Conflict) :
    line (.tagClaimedTwice c) = "WARN Alias '" ++ c.identifier ++ "' is claimed by '" ++ c.winner ++
      "' and '" ++ c.shadowed ++ "'; '" ++ c.winner ++ "' wins" := by
  have hstem : ∀ s, "WARN" ++ (" " ++ ("Alias '" ++ s)) = "WARN Alias '" ++ s := by
    intro s
    have hwarn : "WARN Alias '" = "WARN" ++ (" " ++ "Alias '") := by decide
    rw [hwarn, String.append_assoc, String.append_assoc]
  unfold line level Log.Level.label message
  simp only [String.append_assoc]
  exact hstem _

/-- Without a wish warnings are shown, and nothing else. -/
theorem Log.Filter.standard_select (events : List Log.Event) :
    standard.select events = events.filter (·.level = .warn) := by
  refine congrArg (fun p => List.filter p events) (funext fun e => ?_)
  cases e <;> rfl

namespace Registry
variable {t : FileTree}

theorem warnings_load (e : Environment) (t : FileTree) (path : Option String) :
    ((load e path).run t).warnings = [] := by
  cases path with
  | some path =>
    rw [run_load_some]
    rfl
  | none =>
    cases h : t.existing? e.languagesFile with
    | some path =>
      rw [run_load_found h]
      rfl
    | none =>
      rw [run_load_missing h]
      rfl

/-- Of what building reports the conflicts are warnings. -/
theorem warnings_buildEvents (r : Registry) (o : Options) :
    ((Log.reportAll (r.buildEvents o)).run t).warnings = r.conflicts.map .tagClaimedTwice := by
  have hconflicts : (r.conflicts.map Log.Event.tagClaimedTwice).filter (·.level = .warn) =
      r.conflicts.map .tagClaimedTwice := by
    simp [List.filter_map, Function.comp_def, Log.Event.level]
  rw [Session.run_reportAll, Session.Outcome.warnings, buildEvents, List.filter_append, hconflicts]
  cases r.grammar o <;> exact List.append_nil _

end Registry

namespace Program
open CommandLine (Arguments)
variable {e : Environment} {a : Arguments} {t : FileTree}

theorem warnings_isUpToDate (path : String) (g : Grammar) (t : FileTree) :
    ((g.isUpToDate path).run t).warnings = [] := by
  rw [Grammar.isUpToDate, Session.warnings_bind, Session.run_readText]
  rcases t.readText path with (_ | _ | _) | _ <;> rfl

theorem warnings_write (path : String) (g : Grammar) (t : FileTree) :
    ((g.write path).run t).warnings = [] := by
  rw [Grammar.write, Session.warnings_bind, Session.run_createParents]
  cases (t.createParents path).2 with
  | error f => rfl
  | ok u =>
    rw [Session.warnings_bind, Session.run_writeText]
    cases ((t.createParents path).1.writeText path g.toText).2 <;> rfl

theorem warnings_deliver (p : Plan) (g : Grammar) (t : FileTree) :
    ((deliver p g).run t).warnings = [] := by
  unfold deliver
  cases p.destination with
  | stdout => rfl
  | file path =>
    dsimp only
    split
    · rw [Session.warnings_bind, warnings_isUpToDate]
      rcases ((g.isUpToDate path).run t).result with _ | _ | _ <;> rfl
    · rw [Session.warnings_bind, warnings_write]
      cases ((g.write path).run t).result <;> rfl

/-- No configuration is asked for, and the one of the user is there but no use. -/
def RejectsConfig (e : Environment) (a : Arguments) (t : FileTree) (p : Config.FileProblem) :
    Prop :=
  a.config = none ∧ ∃ path, t.existing? e.configFile = some path ∧
    ((Config.ofFile path).run t).result = .error p

theorem warnings_configFor_of_rejects {p : Config.FileProblem} (h : RejectsConfig e a t p) :
    ((configFor a e).run t).warnings = [.configRejected p.message] := by
  obtain ⟨hnone, path, hfile, hp⟩ := h
  rw [configFor, hnone, Session.warnings_bind, Config.run_load_error hfile hp]
  rfl

theorem warnings_configFor_of_not_rejects (h : ¬∃ p, RejectsConfig e a t p) :
    ((configFor a e).run t).warnings = [] := by
  unfold configFor
  cases ha : a.config with
  | some path =>
    rw [Session.Outcome.warnings, Config.run_ofFile]
    rfl
  | none =>
    have husable := Config.warnings_load_of_usable fun path p hfile hp => h ⟨p, ha, path, hfile, hp⟩
    rw [Session.warnings_bind, husable]
    rfl

/-- Before it has a registry a run warns of its configuration at most. -/
theorem warnings_of_stops (h : Stops e a t) :
    ((runArguments e a).run t).warnings = ((configFor a e).run t).warnings := by
  rw [runArguments, Session.warnings_bind]
  cases h with
  | unconfigured hc => rw [hc, Session.warnings_pure, List.append_nil]
  | unplanned hc hp => simp only [hc, hp, Session.warnings_pure, List.append_nil]
  | unregistered hc hp hr =>
    rw [configFor_readOnly a e t]
    simp only [hc, hp, execute, Session.warnings_bind, hr, Registry.warnings_load,
      Session.warnings_pure, List.append_nil]

theorem warnings_of_loads {c : Config} {p : Plan} {r : Registry}
    (hc : ((configFor a e).run t).result = .ok c) (hp : a.plan? c = some p)
    (hr : ((Registry.load e p.languages).run t).result = .ok r) :
    ((runArguments e a).run t).warnings =
      ((configFor a e).run t).warnings ++ r.conflicts.map .tagClaimedTwice := by
  obtain ⟨g, hg⟩ := Registry.grammar_of_validate (o := p.options) (Registry.validate_of_load hr)
  rw [runArguments, Session.warnings_bind, configFor_readOnly a e t]
  simp only [hc, hp, execute, Session.warnings_bind, hr, Registry.warnings_load, hg,
    Registry.warnings_buildEvents, warnings_deliver, List.nil_append, List.append_nil]

/-- Without a wish of the user the log shows a warning for the configuration of the user if it is
looked for, has a place, exists and is no use, and then, if there are a plan and a registry, one for
each conflict of the registry. It does not matter what the plan is or how the run ends. -/
theorem standard_log_shows_problems (e : Environment) (t : FileTree) (words : List String)
    (hwish : e.logWish = none) :
    let shown := (Log.Filter.ofWish e.logWish).select ((run e words).run t).events
    (∀ r, CommandLine.parse words = .error r → shown = []) ∧
    ∀ a, CommandLine.parse words = .ok a → ∃ unusable : List Log.Event,
      (∀ p, RejectsConfig e a t p → unusable = [.configRejected p.message]) ∧
      ((¬∃ p, RejectsConfig e a t p) → unusable = []) ∧
      (Stops e a t → shown = unusable) ∧
      ∀ c p r, ((configFor a e).run t).result = .ok c → a.plan? c = some p →
        ((Registry.load e p.languages).run t).result = .ok r →
        shown = unusable ++ r.conflicts.map .tagClaimedTwice ∧
        shown.map Log.Event.line = unusable.map Log.Event.line ++ r.conflicts.map fun c =>
          "WARN Alias '" ++ c.identifier ++ "' is claimed by '" ++ c.winner ++ "' and '" ++
            c.shadowed ++ "'; '" ++ c.winner ++ "' wins" := by
  intro shown
  have hshown : shown = ((run e words).run t).warnings := by
    simp only [shown, hwish]
    exact Log.Filter.standard_select _
  rw [hshown]
  constructor
  · intro r hr
    rw [run, hr]
    rfl
  · intro a ha
    rw [run_of_parse ha]
    refine ⟨((configFor a e).run t).warnings, fun p => warnings_configFor_of_rejects,
      warnings_configFor_of_not_rejects, warnings_of_stops, ?_⟩
    intro c p r hc hp hr
    rw [warnings_of_loads hc hp hr, List.map_append, List.map_map]
    refine ⟨rfl, congrArg _ (List.map_congr_left fun c _ => ?_)⟩
    exact Log.Event.line_tagClaimedTwice c

/-- A directory in place of the configuration of the user, two languages with one alias, and nothing
at the destination that is compared. Without a home only the alias shows. -/
theorem standard_log_shows_problems_of_shared :
    let text := "languages: [\x7bname: sql, identifiers: [q], source: source.sql\x7d, " ++
      "\x7bname: kql, identifiers: [q], source: source.kql\x7d]"
    let e : Environment := { home := some "." }
    let homeless : Environment := { home := some "" }
    let folder := ["", ".config", "tagged-grammar"]
    let t := (((FileTree.put .empty ["", ".config"] .directory).put folder .directory).put
      (folder ++ ["config.yaml"]) .directory).put ["", "l.yaml"] (.file (.text text))
    let words := ["-l", "l.yaml", "-o", "g.json", "--check"]
    (Log.Filter.ofWish e.logWish).select ((run e words).run t).events =
      [.configRejected
        "Failed to read config at ./.config/tagged-grammar/config.yaml: Is a directory (os error 21)",
        .tagClaimedTwice ⟨"q", "sql", "kql"⟩] ∧
    (Log.Filter.ofWish homeless.logWish).select ((run homeless words).run t).events =
      [.tagClaimedTwice ⟨"q", "sql", "kql"⟩] := by
  intro text e homeless folder t words
  let a : Arguments := { languages := some "l.yaml", output := some "g.json", check := true }
  let p : Plan := ⟨some "l.yaml", ({} : Config).options, .file "g.json", true⟩
  have hload : ∀ e, ((Registry.load e p.languages).run t).result =
      .ok ⟨[⟨"sql", ["q"], .one "source.sql"⟩, ⟨"kql", ["q"], .one "source.kql"⟩]⟩ := by
    intro e
    rw [Registry.run_load_some]
    decide +kernel
  obtain ⟨unusable, hunusable, -, -, hshown⟩ := (standard_log_shows_problems e t words rfl).2 a rfl
  obtain ⟨unusable', -, hquiet, -, hshown'⟩ :=
    (standard_log_shows_problems homeless t words rfl).2 a rfl
  constructor
  · have hrejects : RejectsConfig e a t
        (.unreadable "./.config/tagged-grammar/config.yaml" .isDirectory) :=
      ⟨rfl, "./.config/tagged-grammar/config.yaml", by decide +kernel, by decide +kernel⟩
    have hconfig : ((configFor a e).run t).result = .ok {} := by decide +kernel
    rw [(hshown {} p _ hconfig rfl (hload e)).1, hunusable _ hrejects]
    decide +kernel
  · have hnone : ¬∃ p, RejectsConfig homeless a t p := by
      rintro ⟨p, -, path, hpath, -⟩
      cases hpath
    rw [(hshown' {} p _ rfl rfl (hload homeless)).1, hquiet hnone]
    decide +kernel

end Program
end InjectionGrammar
