import InjectionGrammar.Proofs.Loading
import Mathlib.Data.List.Basic

/-! Where loading falls back: on the builtin registry only for want of a file, on the default
configuration also where the file of the user is no use, with a warning. -/
namespace InjectionGrammar
open Yaml
variable {e : Environment} {t : FileTree}

/-- The warnings among the events of a session. -/
def Session.Outcome.warnings {α : Type} (o : Session.Outcome α) : List Log.Event :=
  o.events.filter (·.level = .warn)

namespace Registry
variable {path : String} {f : Fault} {r : Registry}

/-- Why the file at a path gives no registry: it cannot be read as a text, the text describes no
registry, or the registry has a flaw. -/
inductive Unusable (t : FileTree) (path : String) : Fault → Prop where
  | unreadable {f : FileFault} (h : t.readText path = .error f) :
      Unusable t path (.unreadable path f)
  | unfit {text : String} {f : Yaml.Fault} (h : t.readText path = .ok text)
      (hr : (registryLayout.read depthLimit).run text = .error f) : Unusable t path (.unfit f)
  | flawed {text : String} {r : Registry} {f : Flaw} (h : t.readText path = .ok text)
      (hr : (registryLayout.read depthLimit).run text = .ok r) (hf : r.validate = .error f) :
      Unusable t path (.flawed f)

theorem ofText_eq_error {text : String} : ofText text = .error f ↔
    (∃ y, (registryLayout.read depthLimit).run text = .error y ∧ f = .unfit y) ∨
    ∃ r w, (registryLayout.read depthLimit).run text = .ok r ∧ r.validate = .error w ∧
      f = .flawed w := by
  unfold ofText
  cases hr : (registryLayout.read depthLimit).run text with
  | error y => simp [Except.mapError, eq_comm]
  | ok r => cases hv : r.validate <;> simp [Except.mapError, hv, eq_comm, pure, Except.pure]

/-- A file gives no registry for just these reasons. -/
theorem result_ofFile_eq_error : ((ofFile path).run t).result = .error f ↔ Unusable t path f := by
  rw [run_ofFile]
  cases ht : t.readText path with
  | error g =>
    constructor
    · intro h
      cases h
      exact .unreadable ht
    · intro h
      cases h with
      | unreadable h => rw [Except.error.inj (ht.symm.trans h)]; rfl
      | unfit h => cases ht.symm.trans h
      | flawed h => cases ht.symm.trans h
  | ok text =>
    rw [Except.mapError, Except.ok_bind, ofText_eq_error]
    constructor
    · rintro (⟨y, hr, rfl⟩ | ⟨r, w, hr, hw, rfl⟩)
      · exact .unfit ht hr
      · exact .flawed ht hr hw
    · intro h
      cases h with
      | unreadable h => cases ht.symm.trans h
      | unfit h hr =>
        obtain rfl := Except.ok.inj (ht.symm.trans h)
        exact .inl ⟨_, hr, rfl⟩
      | flawed h hr hf =>
        obtain rfl := Except.ok.inj (ht.symm.trans h)
        exact .inr ⟨_, _, hr, hf, rfl⟩

/-- A file may hold the builtin languages as well, so it is by the report that falling back is
told. -/
theorem run_load_eq_builtin {path : Option String} :
    (load e path).run t = ⟨.ok builtin, t, [.builtinRegistryUsed]⟩ ↔
      path = none ∧ t.existing? e.languagesFile = none := by
  constructor
  · intro h
    have hevents := congrArg Session.Outcome.events h
    cases path with
    | some path => simp [run_load_some] at hevents
    | none =>
      cases hc : t.existing? e.languagesFile with
      | some path => simp [run_load_found hc] at hevents
      | none => exact ⟨rfl, rfl⟩
  · rintro ⟨rfl, hc⟩
    exact run_load_missing hc

end Registry

namespace Config

theorem result_load_of_unusable (h : ∀ path c, t.existing? e.configFile = some path →
    ((ofFile path).run t).result ≠ .ok c) : ((load e).run t).result = {} := by
  cases hfile : t.existing? e.configFile with
  | none => exact load_of_missing hfile
  | some path =>
    cases hr : ((ofFile path).run t).result with
    | ok c => exact absurd hr (h path c hfile)
    | error p => rw [run_load_error hfile hr]

theorem warnings_load_of_usable (h : ∀ path p, t.existing? e.configFile = some path →
    ((ofFile path).run t).result ≠ .error p) : ((load e).run t).warnings = [] := by
  cases hfile : t.existing? e.configFile with
  | none =>
    obtain ⟨event, hlevel, hrun⟩ := run_load_missing hfile
    rw [hrun]
    simp [Session.Outcome.warnings, hlevel]
  | some path =>
    cases hr : ((ofFile path).run t).result with
    | ok c =>
      rw [run_load_ok hfile hr]
      rfl
    | error p => exact absurd hr (h path p hfile)

end Config

/-- A registry comes from the file that is asked for, else from that of the user if it exists; what
is wrong with such a file is an error. Only without either it is the builtin one, and it is valid in
any case. A configuration is that of the user, or the default one; it warns just if the file of the
user exists and is no use. Where there is no directory for such files there are none. -/
theorem missing_files_fall_back (e : Environment) (t : FileTree) :
    (∀ path, ((Registry.load e (some path)).run t).result =
      ((Registry.ofFile path).run t).result) ∧
    (∀ path, t.existing? e.languagesFile = some path →
      ((Registry.load e none).run t).result = ((Registry.ofFile path).run t).result) ∧
    (∀ path f, ((Registry.ofFile path).run t).result = .error f ↔ Registry.Unusable t path f) ∧
    (∀ path, (Registry.load e path).run t = ⟨.ok .builtin, t, [.builtinRegistryUsed]⟩ ↔
      path = none ∧ t.existing? e.languagesFile = none) ∧
    (∀ path r, ((Registry.load e path).run t).result = .ok r → r.validate = .ok ()) ∧
    (∀ path c, t.existing? e.configFile = some path →
      ((Config.ofFile path).run t).result = .ok c → ((Config.load e).run t).result = c) ∧
    ((∀ path c, t.existing? e.configFile = some path →
      ((Config.ofFile path).run t).result ≠ .ok c) → ((Config.load e).run t).result = {}) ∧
    (∀ path p, t.existing? e.configFile = some path →
      ((Config.ofFile path).run t).result = .error p →
      ((Config.load e).run t).warnings = [.configRejected p.message]) ∧
    ((∀ path p, t.existing? e.configFile = some path →
      ((Config.ofFile path).run t).result ≠ .error p) →
      ((Config.load e).run t).warnings = []) := by
  refine ⟨?_, ?_, fun _ _ => Registry.result_ofFile_eq_error, fun _ => Registry.run_load_eq_builtin,
    fun _ _ => Registry.validate_of_load, ?_, Config.result_load_of_unusable, ?_,
    Config.warnings_load_of_usable⟩
  · intro path
    rw [Registry.run_load_some]
  · intro path hfile
    rw [Registry.run_load_found hfile]
  · intro path c hfile hr
    rw [Config.run_load_ok hfile hr]
  · intro path p hfile hp
    rw [Config.run_load_error hfile hp]
    rfl

/-- A user whose home the system has noted, with a flawed registry and a directory in place of a
configuration; and a user without a home, for whom these are not looked at. -/
theorem missing_files_fall_back_of_flawed :
    let e : Environment := { home := some "", accountHome := some "." }
    let homeless : Environment := { home := some "" }
    let folder := ["", ".config", "tagged-grammar"]
    let t := (((FileTree.put .empty ["", ".config"] .directory).put folder .directory).put
      (folder ++ ["languages.yaml"])
        (.file (.text "languages: [\x7bname: sql, identifiers: [], source: source.sql\x7d]"))).put
      (folder ++ ["config.yaml"]) .directory
    ((Registry.load e none).run t).result = .error (.flawed (.noIdentifiers "sql")) ∧
    ((Registry.load homeless none).run t).result = .ok .builtin ∧
    ((Config.load e).run t).result = {} ∧
    ((Config.load e).run t).warnings = [.configRejected
      "Failed to read config at ./.config/tagged-grammar/config.yaml: Is a directory (os error 21)"] ∧
    ((Config.load homeless).run t).result = {} ∧ ((Config.load homeless).run t).warnings = [] := by
  intro e homeless folder t
  obtain ⟨-, hfound, -, -, -, -, hdefault, hwarned, -⟩ := missing_files_fall_back e t
  obtain ⟨-, -, -, hbuiltin, -, -, hdefault', -, hquiet⟩ := missing_files_fall_back homeless t
  have hfile : t.existing? e.configFile = some "./.config/tagged-grammar/config.yaml" := by
    decide +kernel
  have hconfig : ((Config.ofFile "./.config/tagged-grammar/config.yaml").run t).result =
      .error (.unreadable "./.config/tagged-grammar/config.yaml" .isDirectory) := by
    decide +kernel
  refine ⟨?_, ?_, hdefault ?_, hwarned _ _ hfile hconfig, hdefault' nofun, hquiet nofun⟩
  · have hregistry : ((Registry.ofFile "./.config/tagged-grammar/languages.yaml").run t).result =
        .error (.flawed (.noIdentifiers "sql")) := by decide +kernel
    exact (hfound _ (by decide +kernel)).trans hregistry
  · rw [(hbuiltin none).2 ⟨rfl, rfl⟩]
  · intro path c hpath hc
    obtain rfl := Option.some.inj (hfile.symm.trans hpath)
    cases hconfig.symm.trans hc

end InjectionGrammar
