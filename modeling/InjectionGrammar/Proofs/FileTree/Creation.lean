import InjectionGrammar.Proofs.FileTree.Write
import InjectionGrammar.Proofs.Outcome

/-! Creating directories: they appear where nothing was, on the way of a path, and nothing else
changes. -/
namespace InjectionGrammar

namespace Path
variable {ps : List String} {above path : String}

/-- Going upwards leads to initial parts of the pieces that do not end in an empty one. -/
theorem exists_of_mem_upwards (h : above ∈ upwards ps) :
    ∃ later piece front, ps = later ++ piece :: front ∧ piece ≠ "" ∧
      above = ofPieces (piece :: front).reverse := by
  induction ps with
  | nil => cases h
  | cons piece front ih =>
    rw [upwards] at h
    split at h
    · obtain ⟨later, piece', front', rfl, hne, heq⟩ := ih h
      exact ⟨piece :: later, piece', front', rfl, hne, heq⟩
    · next hskip =>
      rcases List.mem_cons.1 h with rfl | h
      · exact ⟨[], piece, front, rfl, fun hp => hskip (.inl hp), rfl⟩
      · obtain ⟨later, piece', front', rfl, hne, heq⟩ := ih h
        exact ⟨piece :: later, piece', front', rfl, hne, heq⟩

/-- Behind all but the first of them a name comes that is no dot. -/
theorem exists_of_mem_tail_upwards (h : above ∈ (upwards ps).tail) :
    ∃ later piece front, ps = later ++ piece :: front ∧ piece ≠ "" ∧
      above = ofPieces (piece :: front).reverse ∧ ∃ name ∈ later, name ≠ "" ∧ name ≠ "." := by
  induction ps with
  | nil => cases h
  | cons piece front ih =>
    rw [upwards] at h
    split at h
    · obtain ⟨later, piece', front', rfl, hne, heq, name, hmem, hname⟩ := ih h
      exact ⟨piece :: later, piece', front', rfl, hne, heq, name, List.mem_cons_of_mem _ hmem, hname⟩
    · next hskip =>
      rw [List.tail_cons] at h
      obtain ⟨later, piece', front', rfl, hne, heq⟩ := exists_of_mem_upwards h
      have hpiece : piece ≠ "" := fun hp => hskip (.inl hp)
      have hdot : piece ≠ "." := fun hp => hskip (.inr ⟨hp, by simp⟩)
      exact ⟨piece :: later, piece', front', rfl, hne, heq, piece, List.mem_cons_self, hpiece, hdot⟩

end Path

namespace FileTree
variable {t t' t'' : FileTree} {p q : Place} {path above text : String} {paths : List String}
  {new new' : Place → Prop} {c : Content}

theorem Keeps.locate (h : Keeps t t') (hp : t.locate path = .ok p) : t'.locate path = .ok p := by
  obtain ⟨hn, hw⟩ := locate_eq_ok.1 hp
  exact locate_eq_ok.2 ⟨hn, h.walk hw⟩

/-- Directories have been created where nothing was, at places of a kind; all else is as it was. -/
def Extends (t t' : FileTree) (new : Place → Prop) : Prop :=
  ∀ q, t'.entry? q = t.entry? q ∨
    t.entry? q = none ∧ t'.entry? q = some .directory ∧ new q

namespace Extends

theorem refl (t : FileTree) (new : Place → Prop) : Extends t t new := fun _ => .inl rfl

theorem mono (h : Extends t t' new) (hnew : ∀ q, new q → new' q) : Extends t t' new' := by
  intro q
  rcases h q with heq | ⟨hnone, hdir, hq⟩
  · exact .inl heq
  · exact .inr ⟨hnone, hdir, hnew q hq⟩

theorem trans (h : Extends t t' new) (h' : Extends t' t'' new) : Extends t t'' new := by
  intro q
  rcases h' q with heq' | ⟨hnone', hdir', hq'⟩
  · rcases h q with heq | ⟨hnone, hdir, hq⟩
    · exact .inl (heq'.trans heq)
    · exact .inr ⟨hnone, heq'.trans hdir, hq⟩
  · rcases h q with heq | ⟨hnone, hdir, hq⟩
    · exact .inr ⟨heq.symm.trans hnone', hdir', hq'⟩
    · rw [hdir] at hnone'
      cases hnone'

theorem keeps (h : Extends t t' new) : Keeps t t' := by
  intro q hq
  rcases h q with heq | ⟨hnone, -, -⟩
  · exact heq.trans hq
  · rw [hq] at hnone
    cases hnone

theorem entry?_eq_file (h : Extends t t' new) :
    t'.entry? q = some (.file c) ↔ t.entry? q = some (.file c) := by
  rcases h q with heq | ⟨hnone, hdir, -⟩
  · rw [heq]
  · simp [hnone, hdir]

end Extends

theorem extends_put (h : t.entry? p = none) : Extends t (t.put p .directory) (· = p) := by
  intro q
  rw [entry?_put]
  split
  · next hq => exact .inr ⟨hq.1 ▸ h, rfl, hq.1.symm⟩
  · exact .inl rfl

/-- One directory is created where nothing was. -/
theorem extends_createDirectory (h : t.createDirectory path = .ok t') :
    Extends t t' fun q => t'.locate path = .ok q := by
  obtain ⟨names, hnames, h⟩ := Except.bind_eq_ok.1 h
  obtain ⟨p, hwalk, h⟩ := Except.bind_eq_ok.1 h
  obtain ⟨-, -, -, rfl⟩ := namesFor_eq_ok.1 hnames
  split at h
  · cases h
  · next hnew =>
    have hnone : t.entry? p = none := by simp_all
    cases h
    refine (extends_put hnone).mono ?_
    rintro q rfl
    exact (extends_put hnone).keeps.locate (locate_eq_ok.2 ⟨hnames, hwalk⟩)

/-- What creating a directory with those above it comes to: nothing at all, the directory at once,
those above it, or the directory behind those above it. -/
theorem createUpwards_cons (t : FileTree) (path : String) (above : List String) :
    (t.createUpwards (path :: above)).1 = t ∨
      t.createDirectory path = .ok (t.createUpwards (path :: above)).1 ∨
      (t.createUpwards (path :: above)).1 = (t.createUpwards above).1 ∨
      (t.createUpwards above).1.createDirectory path = .ok (t.createUpwards (path :: above)).1 := by
  rw [createUpwards]
  split
  · next h => exact .inr (.inl h)
  · rcases t.createUpwards above with ⟨t₁, f | u⟩
    · exact .inr (.inr (.inl rfl))
    · cases hc : t₁.createDirectory path with
      | ok t₂ => simp [hc]
      | error f => simp [hc]
  · exact .inl rfl

/-- Whether creation succeeds or stops on its way, each new directory is one of those asked for. -/
theorem extends_createUpwards (t : FileTree) (paths : List String) :
    Extends t (t.createUpwards paths).1 fun q =>
      ∃ path ∈ paths, (t.createUpwards paths).1.locate path = .ok q := by
  induction paths with
  | nil => exact .refl t _
  | cons path above ih =>
    have hlast := createUpwards_cons t path above
    generalize (t.createUpwards (path :: above)).1 = t' at hlast
    generalize (t.createUpwards above).1 = t₁ at hlast ih
    have hone : ∀ {t₀ : FileTree}, t₀.createDirectory path = .ok t' →
        Extends t₀ t' fun q => ∃ path' ∈ path :: above, t'.locate path' = .ok q := by
      intro t₀ h
      refine (extends_createDirectory h).mono ?_
      intro q hq
      exact ⟨path, List.mem_cons_self, hq⟩
    -- what is located in an earlier tree stays there, as only directories are added to it
    have habove : Keeps t₁ t' →
        Extends t t₁ fun q => ∃ path' ∈ path :: above, t'.locate path' = .ok q := by
      intro hkeeps
      refine ih.mono ?_
      rintro q ⟨path', hmem, hq⟩
      exact ⟨path', List.mem_cons_of_mem _ hmem, hkeeps.locate hq⟩
    rcases hlast with rfl | hc | rfl | hc
    · exact .refl _ _
    · exact hone hc
    · exact habove fun _ h => h
    · exact (habove (hone hc).keeps).trans (hone hc)

/-- Every directory on the way of a path exists. -/
def Leads (t : FileTree) (path : String) : Prop :=
  ∀ front rest, Path.names path = front ++ rest → rest ≠ [] →
    ∃ q, t.walk (startOf path) front = .ok q ∧ t.entry? q = some .directory

theorem leads_of_locate (h : t.locate path = .ok q) : t.Leads path := by
  intro front rest hnames hrest
  obtain ⟨name, rest, rfl⟩ := List.exists_cons_of_ne_nil hrest
  obtain ⟨-, hw⟩ := locate_eq_ok.1 h
  rw [hnames] at hw
  obtain ⟨r, hfront, hw⟩ := walk_append_eq_ok.1 hw
  obtain ⟨r', henter, -⟩ := Except.bind_eq_ok.1 (walk_cons ▸ hw)
  exact ⟨r, hfront, isDirectory_of_enter henter⟩

/-- A path leads through a place if it goes on behind it to more than the same directory. -/
def Passes (t : FileTree) (path : String) (q : Place) : Prop :=
  ∃ front rest, Path.names path = front ++ rest ∧ (∃ name ∈ rest, name ≠ ".") ∧
    t.walk (startOf path) front = .ok q

theorem passes_of_mem_ancestors (h : above ∈ (Path.ancestors path).tail)
    (hq : t.locate above = .ok q) : t.Passes path q := by
  obtain ⟨later, piece, front, heq, hpiece, rfl, name, hmem, hname, hdot⟩ :=
    Path.exists_of_mem_tail_upwards h
  have hpieces : Path.pieces path = (piece :: front).reverse ++ later.reverse := by
    rw [← List.reverse_append, ← heq, List.reverse_reverse]
  have hlater : later.reverse ≠ [] := by
    simpa using List.ne_nil_of_mem hmem
  have hne : Path.ofPieces (piece :: front).reverse ≠ "" := by
    rw [List.reverse_cons]
    exact Path.ofPieces_concat_ne_empty hpiece _
  obtain ⟨-, hw⟩ := locate_eq_ok.1 hq
  rw [startOf_ofPieces hpieces hne hlater, names_ofPieces hpieces (by simp)] at hw
  refine ⟨Path.namesOf (piece :: front).reverse, Path.namesOf later.reverse, ?_, ?_, hw⟩
  · rw [Path.names, hpieces, Path.namesOf_append]
  · refine ⟨name, ?_, hdot⟩
    simp [Path.namesOf, hmem, hname]

theorem Keeps.passes (h : Keeps t t') (hq : t.Passes path q) : t'.Passes path q := by
  obtain ⟨front, rest, hnames, hrest, hw⟩ := hq
  exact ⟨front, rest, hnames, hrest, h.walk hw⟩

/-- The directories that a file needs are created on the way of its path. -/
theorem extends_createParents (t : FileTree) (path : String) :
    Extends t (t.createParents path).1 ((t.createParents path).1.Passes path) := by
  refine (extends_createUpwards t _).mono ?_
  rintro q ⟨above, hmem, hq⟩
  exact passes_of_mem_ancestors hmem hq

/-- Two trees differ at most in the file that a path leads to in the second, which holds a text
there, and in directories on the way of the path, which were nothing in the first. -/
def DiffersAt (t t' : FileTree) (path text : String) : Prop :=
  ∀ q, t'.entry? q = t.entry? q ∨
    (t'.locate path = .ok q ∧ t.entry? q ≠ some .directory ∧
      t'.entry? q = some (.file (.text text))) ∨
    (t.entry? q = none ∧ t'.entry? q = some .directory ∧ t'.Passes path q)

theorem differsAt_of_extends (h : Extends t t' (t'.Passes path)) :
    DiffersAt t t' path text := by
  intro q
  rcases h q with heq | hnew
  · exact .inl heq
  · exact .inr (.inr hnew)

/-- Creating directories and then writing the file. -/
theorem differsAt_of_write (h : Extends t t' (t'.Passes path))
    (hw : t'.write path (.text text) = .ok t'') : DiffersAt t t'' path text := by
  obtain ⟨p, hp, hd, -, rfl⟩ := write_eq_ok.1 hw
  have hkeeps : Keeps t' (t'.put p (.file (.text text))) := keeps_put hd
  intro q
  by_cases hq : p = q
  · subst q
    exact .inr (.inl ⟨hkeeps.locate hp, fun hdir => hd (h.keeps p hdir), entry?_put_self hd⟩)
  · have hsame : entry? (t'.put p (.file (.text text))) q = t'.entry? q := by
      rw [entry?_put, if_neg fun hp => hq hp.1]
    rw [hsame]
    rcases h q with heq | ⟨hnone, hdir, hpass⟩
    · exact .inl heq
    · exact .inr (.inr ⟨hnone, hdir, hkeeps.passes hpass⟩)

theorem DiffersAt.refl (t : FileTree) (path text : String) : DiffersAt t t path text :=
  fun _ => .inl rfl

theorem DiffersAt.keeps (h : DiffersAt t t' path text) : Keeps t t' := by
  intro q hq
  rcases h q with heq | ⟨-, hdir, -⟩ | ⟨hnone, -, -⟩
  · exact heq.trans hq
  · exact absurd hq hdir
  · rw [hq] at hnone
    cases hnone

theorem DiffersAt.exists_file (h : DiffersAt t t' path text) (hq : t.entry? q = some (.file c)) :
    ∃ c', t'.entry? q = some (.file c') := by
  rcases h q with heq | ⟨-, -, hfile⟩ | ⟨hnone, -, -⟩
  · exact ⟨c, heq.trans hq⟩
  · exact ⟨_, hfile⟩
  · rw [hq] at hnone
    cases hnone

theorem DiffersAt.entry?_eq_file (h : DiffersAt t t' path text) (hq : t'.locate path ≠ .ok q) :
    t'.entry? q = some (.file c) ↔ t.entry? q = some (.file c) := by
  rcases h q with heq | ⟨hp, -, -⟩ | ⟨hnone, hdir, -⟩
  · rw [heq]
  · exact absurd hp hq
  · simp [hnone, hdir]

end FileTree
end InjectionGrammar
