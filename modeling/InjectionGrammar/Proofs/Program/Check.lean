import InjectionGrammar.Proofs.CommandLine.Reading
import InjectionGrammar.Proofs.Grammar.File
import InjectionGrammar.Proofs.Program.Stages
import InjectionGrammar.Proofs.Registry.Validation

/-! Checking tells in advance whether a run would change anything. -/
namespace InjectionGrammar
namespace CommandLine.Arguments

/-- The same arguments, with checking asked for. -/
def checked (a : Arguments) : Arguments :=
  { a with check := true }

theorem plan?_checked (a : Arguments) (c : Config) :
    a.checked.plan? c = (a.plan? c).map fun p => { p with check := true } := by
  rw [plan?, plan?, Option.map_map]
  rfl

end CommandLine.Arguments

namespace Program
open CommandLine (Arguments)
variable {e : Environment} {a : Arguments} {t t' : FileTree} {p : Plan} {g : Grammar}

theorem builds_checked (h : Builds e a t p g) :
    Builds e a.checked t { p with check := true } g := by
  obtain ⟨c, r, hc, hp, hr, hg⟩ := h
  exact ⟨c, r, hc, by rw [Arguments.plan?_checked, hp]; rfl, hr, hg⟩

theorem builds_of_checked (h : Builds e a.checked t p g) :
    ∃ q, Builds e a t q g ∧ p = { q with check := true } := by
  obtain ⟨c, r, hc, hp, hr, hg⟩ := h
  rw [Arguments.plan?_checked] at hp
  obtain ⟨q, hq, rfl⟩ := Option.map_eq_some_iff.1 hp
  exact ⟨q, ⟨c, r, hc, hq, hr, hg⟩, rfl⟩

theorem exitCode_compare {path : String} (hd : p.destination = .file path) :
    ((deliver { p with check := true } g).run t).result.exitCode = 0 ↔ g.HeldAt t path := by
  simp only [deliver, hd, if_true, Session.result_bind, ← Grammar.isUpToDate_eq_true]
  rcases ((g.isUpToDate path).run t).result with f | _ | _ <;>
    simp [Report.ofFailure, Report.outdated, Report.success]

/-- Checking succeeds exactly where the run without it succeeds and leaves the files as they are. -/
theorem exitCode_checked_iff (hs : a.stdout = false) (hc : a.check = false) :
    ((runArguments e a.checked).run t).result.exitCode = 0 ↔
      ((runArguments e a).run t).result.exitCode = 0 ∧ ((runArguments e a).run t).files = t := by
  constructor
  · intro h
    obtain ⟨p', g, hp'⟩ := builds_of_exitCode_eq_zero h
    obtain ⟨p, hp, rfl⟩ := builds_of_checked hp'
    obtain ⟨hpc, path, hd⟩ := file_of_builds hs hc hp
    rw [(run_of_builds hp').1, exitCode_compare hd] at h
    obtain ⟨hresult, hfiles⟩ := Grammar.write_of_heldAt h
    obtain ⟨hexit, hleft⟩ := exitCode_write (g := g) (t := t) hd hpc
    rw [(run_of_builds hp).1, (run_of_builds hp).2, hleft]
    exact ⟨hexit.2 hresult, hfiles⟩
  · rintro ⟨h, hfiles⟩
    obtain ⟨p, g, hp⟩ := builds_of_exitCode_eq_zero h
    obtain ⟨hpc, path, hd⟩ := file_of_builds hs hc hp
    obtain ⟨hexit, hleft⟩ := exitCode_write (g := g) (t := t) hd hpc
    rw [(run_of_builds hp).1, hexit] at h
    rw [(run_of_builds hp).2, hleft] at hfiles
    rw [(run_of_builds (builds_checked hp)).1, exitCode_compare hd]
    have hheld := Grammar.heldAt_of_write h
    rwa [hfiles] at hheld

/-- What a run reads besides its destination is the same in two file trees. -/
def ReadsAlike (e : Environment) (a : Arguments) (t t' : FileTree) : Prop :=
  ((configFor a e).run t').result = ((configFor a e).run t).result ∧
    ((Registry.load e a.languages).run t').result = ((Registry.load e a.languages).run t).result

theorem builds_of_readsAlike (hr : ReadsAlike e a t t') (h : Builds e a t p g) :
    Builds e a t' p g := by
  obtain ⟨c, r, hc, hp, hl, hg⟩ := h
  have hlang : p.languages = a.languages := by
    obtain ⟨d, -, rfl⟩ := Option.map_eq_some_iff.1 hp
    rfl
  refine ⟨c, r, hr.1.trans hc, hp, ?_, hg⟩
  rw [hlang] at hl ⊢
  exact hr.2.trans hl

/-- Behind a run that succeeds checking succeeds, unless the run has changed what it read. -/
theorem exitCode_checked_after (hs : a.stdout = false) (hc : a.check = false)
    (h : ((runArguments e a).run t).result.exitCode = 0)
    (hr : ReadsAlike e a t ((runArguments e a).run t).files) :
    ((runArguments e a.checked).run ((runArguments e a).run t).files).result.exitCode = 0 := by
  obtain ⟨p, g, hp⟩ := builds_of_exitCode_eq_zero h
  obtain ⟨hpc, path, hd⟩ := file_of_builds hs hc hp
  obtain ⟨hexit, hleft⟩ := exitCode_write (g := g) (t := t) hd hpc
  rw [(run_of_builds (builds_checked (builds_of_readsAlike hr hp))).1, exitCode_compare hd]
  rw [(run_of_builds hp).1, hexit] at h
  rw [(run_of_builds hp).2, hleft]
  exact Grammar.heldAt_of_write h

/-- For a command line that neither prints nor checks: with the flag for checking added where the
command line is still accepted, as it is in front, a run succeeds exactly if without the flag it
succeeds and leaves the files as they are. After a run that succeeds and has not changed what it
reads, checking succeeds, and the same run again succeeds and changes nothing. -/
theorem check_foretells_write (e : Environment) (t : FileTree) (before after : List String)
    (a : Arguments) (h : CommandLine.parse (before ++ after) = .ok a) (hs : a.stdout = false)
    (hc : a.check = false) :
    let plain := (run e (before ++ after)).run t
    (∃ b, CommandLine.parse ("--check" :: (before ++ after)) = .ok b) ∧
    ((∃ b, CommandLine.parse (before ++ "--check" :: after) = .ok b) →
      (((run e (before ++ "--check" :: after)).run t).result.exitCode = 0 ↔
        plain.result.exitCode = 0 ∧ plain.files = t) ∧
      (plain.result.exitCode = 0 → ReadsAlike e a t plain.files →
        ((run e (before ++ "--check" :: after)).run plain.files).result.exitCode = 0 ∧
        ((run e (before ++ after)).run plain.files).result.exitCode = 0 ∧
        ((run e (before ++ after)).run plain.files).files = plain.files)) := by
  refine ⟨⟨_, CommandLine.parse_check_cons h hs hc⟩, ?_⟩
  rintro ⟨b, hb⟩
  obtain rfl : b = a.checked := CommandLine.parse_insert_check h hc hb
  rw [run_of_parse h, run_of_parse hb]
  refine ⟨exitCode_checked_iff hs hc, ?_⟩
  intro hzero hr
  have hagain := exitCode_checked_after hs hc hzero hr
  exact ⟨hagain, (exitCode_checked_iff hs hc).1 hagain⟩

/-- Behind the first run in an empty directory checking succeeds. -/
theorem check_foretells_write_of_empty :
    ((run { home := some "home" } ["-o", "g.json", "--check"]).run
        ((run { home := some "home" } ["-o", "g.json"]).run .empty).files).result.exitCode = 0 ∧
      ((run { home := some "home" } ["-o", "g.json"]).run
        ((run { home := some "home" } ["-o", "g.json"]).run .empty).files).files =
        ((run { home := some "home" } ["-o", "g.json"]).run .empty).files := by
  have hparse : CommandLine.parse (["-o", "g.json"] ++ []) = .ok { output := some "g.json" } := rfl
  obtain ⟨g, hg⟩ := Registry.grammar_of_validate (o := ({} : Config).options)
    Registry.validate_builtin
  have hreads : ∀ t : FileTree,
      t.existing? (Environment.configFile { home := some "home" }) = none →
      t.existing? (Environment.languagesFile { home := some "home" }) = none →
      ((configFor { output := some "g.json" } { home := some "home" }).run t).result = .ok {} ∧
        ((Registry.load { home := some "home" } none).run t).result = .ok .builtin := by
    intro t hc hl
    exact ⟨by simp [configFor, Config.load_of_missing hc], Registry.load_of_missing hl⟩
  obtain ⟨hconfig, hload⟩ := hreads .empty rfl rfl
  have hbuilds : Builds { home := some "home" } { output := some "g.json" } .empty
      ⟨none, ({} : Config).options, .file "g.json", false⟩ g :=
    ⟨{}, .builtin, hconfig, rfl, hload, hg⟩
  have hrun : run { home := some "home" } ["-o", "g.json"] =
      runArguments { home := some "home" } { output := some "g.json" } := run_of_parse hparse
  have hzero : ((run { home := some "home" } ["-o", "g.json"]).run .empty).result.exitCode = 0 := by
    rw [hrun, (run_of_builds hbuilds).1]
    rfl
  have hfiles : ((run { home := some "home" } ["-o", "g.json"]).run .empty).files =
      FileTree.put .empty ["", "g.json"] (.file (.text g.toText)) := by
    rw [hrun, (run_of_builds hbuilds).2]
    rfl
  have halike : ReadsAlike { home := some "home" } { output := some "g.json" } .empty
      ((run { home := some "home" } ["-o", "g.json"]).run .empty).files := by
    obtain ⟨hconfig', hload'⟩ := hreads
      (FileTree.put .empty ["", "g.json"] (.file (.text g.toText))) rfl rfl
    rw [hfiles]
    exact ⟨hconfig'.trans hconfig.symm, hload'.trans hload.symm⟩
  obtain ⟨-, hchecked⟩ :=
    check_foretells_write { home := some "home" } .empty ["-o", "g.json"] [] _ hparse rfl rfl
  simp only [List.cons_append, List.nil_append] at hchecked
  obtain ⟨hagain, -, hsame⟩ := (hchecked ⟨_, rfl⟩).2 hzero halike
  exact ⟨hagain, hsame⟩

end Program
end InjectionGrammar
