import InjectionGrammar.Proofs.Grammar.File
import InjectionGrammar.Proofs.Program.Stages

/-! A run leaves all files alone but the one that it is to write, and that one too if it fails. -/
namespace InjectionGrammar
namespace Program
open CommandLine (Arguments)
variable {e : Environment} {a : Arguments} {t : FileTree} {p : Plan} {g : Grammar}

theorem deliver_readOnly (g : Grammar) (h : p.check = true ∨ p.destination = .stdout) :
    (deliver p g).ReadOnly := by
  unfold deliver
  cases hd : p.destination with
  | stdout => exact Session.readOnly_pure _
  | file path =>
    rcases h with hc | hs
    · simp only [hc, if_true]
      refine (Grammar.isUpToDate_readOnly path g).bind fun r => ?_
      rcases r with f | _ | _ <;> exact Session.readOnly_pure _
    · rw [hd] at hs
      cases hs

theorem readOnly_of_builds (h : Builds e a t p g) (hflags : a.check = true ∨ a.stdout = true) :
    (deliver p g).ReadOnly := by
  obtain ⟨c, r, -, hp, -, -⟩ := h
  obtain ⟨d, hd, rfl⟩ := Option.map_eq_some_iff.1 hp
  apply deliver_readOnly
  rcases hflags with hc | hs
  · exact .inl hc
  · simp only [Arguments.destination?, hs, if_true, Option.some.injEq] at hd
    exact .inr hd.symm

/-- A run that ends early, checks or prints changes no file. -/
theorem files_of_runArguments (h : Stops e a t ∨ a.check = true ∨ a.stdout = true) :
    ((runArguments e a).run t).files = t := by
  rcases stops_or_builds e a t with hstops | ⟨p, g, hbuilds⟩
  · exact (run_of_stops hstops).2
  · rcases h with hstops | hflags
    · exact (run_of_stops hstops).2
    · rw [(run_of_builds hbuilds).2]
      exact readOnly_of_builds hbuilds hflags t

/-- A run that ends late and has no flag for anything else writes a file. -/
theorem write_of_runArguments (hstops : ¬Stops e a t) (hc : a.check = false)
    (hs : a.stdout = false) :
    ∃ p g path, Builds e a t p g ∧ p.destination = .file path ∧
      (((runArguments e a).run t).result.exitCode = 0 ↔ ((g.write path).run t).result = .ok ()) ∧
      ((runArguments e a).run t).files = ((g.write path).run t).files := by
  obtain ⟨p, g, hbuilds⟩ := (stops_or_builds e a t).resolve_left hstops
  obtain ⟨hpc, path, hd⟩ := file_of_builds hs hc hbuilds
  obtain ⟨hresult, hfiles⟩ := run_of_builds hbuilds
  rw [hresult, hfiles]
  exact ⟨p, g, path, hbuilds, hd, exitCode_write hd hpc⟩

theorem exists_differsAt_runArguments (e : Environment) (a : Arguments) (t : FileTree) :
    ∃ path text, t.DiffersAt ((runArguments e a).run t).files path text := by
  by_cases h : Stops e a t ∨ a.check = true ∨ a.stdout = true
  · rw [files_of_runArguments h]
    exact ⟨"", "", .refl t "" ""⟩
  · simp only [not_or, Bool.not_eq_true] at h
    obtain ⟨-, g, path, -, -, -, hfiles⟩ := write_of_runArguments h.1 h.2.1 h.2.2
    rw [hfiles]
    exact ⟨path, g.toText, g.differsAt_write path t⟩

theorem entry?_of_failed (h : ((runArguments e a).run t).result.exitCode ≠ 0) (q : FileTree.Place)
    (c : FileTree.Content) :
    ((runArguments e a).run t).files.entry? q = some (.file c) ↔
      t.entry? q = some (.file c) := by
  by_cases hflags : Stops e a t ∨ a.check = true ∨ a.stdout = true
  · rw [files_of_runArguments hflags]
  · simp only [not_or, Bool.not_eq_true] at hflags
    obtain ⟨-, g, path, -, -, hexit, hfiles⟩ :=
      write_of_runArguments hflags.1 hflags.2.1 hflags.2.2
    rw [hfiles]
    cases hw : ((g.write path).run t).result with
    | error f => exact Grammar.entry?_of_write_error hw q c
    | ok u => exact absurd (hexit.2 hw) h

/-- A run whose command line is not accepted, that stops before it has a grammar, or that only
checks or prints leaves the files as they are. Any other run changes or creates at most the file at
the path that it has planned, to the text of its grammar, and creates directories on the way of that
path; if it succeeds the file is there. No run takes a file or a directory away, and one that fails
changes and creates no file. -/
theorem run_touches_destination (e : Environment) (words : List String) (t : FileTree) :
    let o := (run e words).run t
    ((∃ r, CommandLine.parse words = .error r) → o.files = t) ∧
    (∀ a, CommandLine.parse words = .ok a →
      (Stops e a t ∨ a.check = true ∨ a.stdout = true → o.files = t) ∧
      (¬Stops e a t → a.check = false → a.stdout = false →
        ∃ p g path, Builds e a t p g ∧ p.destination = .file path ∧
          t.DiffersAt o.files path g.toText ∧
          (o.result.exitCode = 0 → g.HeldAt o.files path))) ∧
    (∀ q, (t.entry? q = some .directory → o.files.entry? q = some .directory) ∧
      ∀ c, t.entry? q = some (.file c) → ∃ c', o.files.entry? q = some (.file c')) ∧
    (o.result.exitCode ≠ 0 →
      ∀ q c, o.files.entry? q = some (.file c) ↔ t.entry? q = some (.file c)) := by
  cases hparse : CommandLine.parse words with
  | error r =>
    have hrun : run e words = pure (.ofRejection r) := by simp only [run, hparse]
    rw [hrun]
    refine ⟨fun _ => rfl, ?_, fun q => ⟨id, fun c hq => ⟨c, hq⟩⟩, fun _ _ _ => .rfl⟩
    intro a ha
    cases ha
  | ok a =>
    rw [run_of_parse hparse]
    obtain ⟨path, text, hdiffers⟩ := exists_differsAt_runArguments e a t
    refine ⟨?_, ?_, ?_, entry?_of_failed⟩
    · rintro ⟨r, hr⟩
      cases hr
    · rintro a' ha
      obtain rfl := Except.ok.inj ha
      refine ⟨files_of_runArguments, ?_⟩
      intro hstops hc hs
      obtain ⟨p, g, path, hbuilds, hd, hexit, hfiles⟩ := write_of_runArguments hstops hc hs
      refine ⟨p, g, path, hbuilds, hd, ?_, ?_⟩
      · rw [hfiles]
        exact g.differsAt_write path t
      · intro hzero
        rw [hfiles]
        exact Grammar.heldAt_of_write (hexit.1 hzero)
    · intro q
      exact ⟨hdiffers.keeps q, fun c hq => hdiffers.exists_file hq⟩

/-- A run that creates a directory only to leave it, and one that fails behind those it creates. -/
theorem run_touches_destination_of_dots :
    let e : Environment := { home := some "home" }
    (∃ g : Grammar,
      FileTree.empty.DiffersAt ((run e ["-o", "a/../g.json"]).run .empty).files
        "a/../g.json" g.toText ∧
      g.HeldAt ((run e ["-o", "a/../g.json"]).run .empty).files "a/../g.json") ∧
    ((run e ["-o", "d/x/.."]).run .empty).files.entry? ["", "d"] = some .directory ∧
    ∀ q c, ((run e ["-o", "d/x/.."]).run .empty).files.entry? q ≠ some (.file c) := by
  intro e
  -- no user files: both runs come as far as writing
  have hbuilds : ∀ path, ∃ g, Builds e { output := some path } .empty
      ⟨none, ({} : Config).options, .file path, false⟩ g := by
    intro path
    exact builds_of_missing rfl rfl rfl rfl rfl
  constructor
  · obtain ⟨g, hg⟩ := hbuilds "a/../g.json"
    have hparse : CommandLine.parse ["-o", "a/../g.json"] =
        .ok { output := some "a/../g.json" } := rfl
    have hzero : ((run e ["-o", "a/../g.json"]).run .empty).result.exitCode = 0 := by
      rw [run_of_parse hparse, (run_of_builds hg).1]
      rfl
    obtain ⟨p, g', path, ⟨c, r, -, hp, -⟩, hd, hdiffers, hheld⟩ :=
      ((run_touches_destination e ["-o", "a/../g.json"] .empty).2.1 _ hparse).2
        (not_stops_of_builds hg) rfl rfl
    obtain rfl := Option.some.inj hp
    obtain rfl := Destination.file.inj hd
    exact ⟨g', hdiffers, hheld hzero⟩
  · obtain ⟨g, hg⟩ := hbuilds "d/x/.."
    have hparse : CommandLine.parse ["-o", "d/x/.."] = .ok { output := some "d/x/.." } := rfl
    have hfails := run_of_builds hg
    rw [← run_of_parse hparse] at hfails
    obtain ⟨hresult, hfiles⟩ := hfails
    constructor
    · rw [hfiles]
      rfl
    · intro q c
      have hexit : ((run e ["-o", "d/x/.."]).run .empty).result.exitCode ≠ 0 := by
        rw [hresult]
        exact Nat.one_ne_zero
      rw [Ne, (run_touches_destination e ["-o", "d/x/.."] .empty).2.2.2 hexit q c]
      unfold FileTree.entry?
      split <;> simp [FileTree.empty]

end Program
end InjectionGrammar
