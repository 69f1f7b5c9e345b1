import InjectionGrammar.Proofs.Registry.Conflicts
import InjectionGrammar.Registry.Builtin
import Mathlib.Data.List.Nodup
import Mathlib.Data.List.Perm.Basic

/-! What conflicts say of precedence: they are the claims that lose, and without them there is
nothing that precedence has to decide. -/
namespace InjectionGrammar
namespace Registry
variable {r r' : Registry} {l l' : Language} {a : String}

/-- The claims of a language to aliases that lead to a language of another name. -/
def lostClaims (r : Registry) (l : Language) : List Conflict :=
  l.identifiers.filterMap fun a =>
    match r.resolve? a with
    | none => none
    | some w => if w.name = l.name then none else some ⟨a, w.name, l.name⟩

theorem lostClaims_eq (r : Registry) (l : Language) : r.lostClaims l =
    l.identifiers.filterMap fun a => conflict? ((r.resolve? a).map (·.name)) l.name a := by
  apply List.filterMap_congr
  intro a _
  cases r.resolve? a <;> rfl

/-- The conflicts are, language by language and alias by alias, the claims to an alias that leads to
a language of another name, where each alias that is claimed leads to some language. The winner is
the name of that language, and an alias is reported exactly if languages of two names claim it. -/
theorem conflicts_are_lost_claims (r : Registry) :
    r.conflicts = r.languages.flatMap r.lostClaims ∧
    (∀ l ∈ r.languages, ∀ a ∈ l.identifiers, ∃ w, r.resolve? a = some w) ∧
    (∀ c ∈ r.conflicts, ∃ w, r.resolve? c.identifier = some w ∧ w.name = c.winner) ∧
    ∀ a, (∃ c ∈ r.conflicts, c.identifier = a) ↔ ∃ l ∈ r.languages, ∃ l' ∈ r.languages,
      a ∈ l.identifiers ∧ a ∈ l'.identifiers ∧ l.name ≠ l'.name := by
  refine ⟨?_, fun l hl a => exists_resolve? hl, ?_, fun a => exists_conflict_iff⟩
  · rw [conflicts_eq]
    apply List.flatMap_congr
    intro l _
    exact (r.lostClaims_eq l).symm
  · intro c hc
    obtain ⟨l, -, -, -, -, hwinner⟩ := mem_conflicts.1 hc
    exact Option.map_eq_some_iff.1 hwinner

/-- Without conflicts an alias leads to any language that claims it, if no name comes twice. -/
theorem resolve?_eq_some_iff (hnames : (r.languages.map (·.name)).Nodup)
    (hnil : r.conflicts = []) :
    r.resolve? a = some l ↔ l ∈ r.languages ∧ a ∈ l.identifiers := by
  constructor
  · exact mem_of_resolve?
  · rintro ⟨hl, ha⟩
    obtain ⟨w, hw⟩ := exists_resolve? hl ha
    obtain ⟨hwr, haw⟩ := mem_of_resolve? hw
    have hname := conflicts_eq_nil_iff.1 hnil w hwr l hl a haw ha
    rw [hw, List.inj_on_of_nodup_map hnames hwr hl hname]

theorem conflicts_eq_nil_of_perm (h : r.languages.Perm r'.languages) (hnil : r.conflicts = []) :
    r'.conflicts = [] := by
  rw [conflicts_eq_nil_iff] at hnil ⊢
  intro l hl l' hl'
  exact hnil l (h.mem_iff.2 hl) l' (h.mem_iff.2 hl')

theorem resolve?_of_perm (hnames : (r.languages.map (·.name)).Nodup) (hnil : r.conflicts = [])
    (h : r.languages.Perm r'.languages) (a : String) : r'.resolve? a = r.resolve? a := by
  have hnames' : (r'.languages.map (·.name)).Nodup := (h.map (·.name)).nodup_iff.1 hnames
  apply Option.ext
  intro l
  rw [resolve?_eq_some_iff hnames hnil,
    resolve?_eq_some_iff hnames' (conflicts_eq_nil_of_perm h hnil), h.mem_iff]

/-- Moved to the front, a language has all the aliases that it claims. -/
theorem exists_perm_resolve? (hl : l ∈ r.languages) (ha : a ∈ l.identifiers) :
    ∃ r' : Registry, r.languages.Perm r'.languages ∧ r'.resolve? a = some l := by
  refine ⟨⟨l :: r.languages.erase l⟩, List.perm_cons_erase hl, ?_⟩
  exact resolve?_of_first (List.nil_append _).symm ha fun _ => nofun

/-- In a registry in which no name comes twice there are no conflicts exactly if each alias leads to
the same language in whatever order the languages are. -/
theorem conflicts_eq_nil_iff_order_free (hnames : (r.languages.map (·.name)).Nodup) :
    r.conflicts = [] ↔ ∀ r' : Registry, r.languages.Perm r'.languages →
      ∀ a, r'.resolve? a = r.resolve? a := by
  constructor
  · intro hnil r' h a
    exact resolve?_of_perm hnames hnil h a
  · intro hfree
    rw [conflicts_eq_nil_iff]
    intro l hl l' hl' a ha ha'
    obtain ⟨s, hs, hsl⟩ := exists_perm_resolve? hl ha
    obtain ⟨s', hs', hsl'⟩ := exists_perm_resolve? hl' ha'
    have hsome : some l = some l' := by
      rw [← hsl, ← hsl', hfree s hs a, hfree s' hs' a]
    rw [Option.some.inj hsome]

/-- The builtin registry could be in any order. -/
theorem conflicts_eq_nil_iff_order_free_of_builtin :
    (builtin.languages.map (·.name)).Nodup ∧ builtin.conflicts = [] ∧
      ∀ r' : Registry, builtin.languages.Perm r'.languages →
        ∀ a, r'.resolve? a = builtin.resolve? a := by
  have hnames : (builtin.languages.map (·.name)).Nodup := by decide +kernel
  have hnil : builtin.conflicts = [] := by decide +kernel
  exact ⟨hnames, hnil, (conflicts_eq_nil_iff_order_free hnames).1 hnil⟩

end Registry
end InjectionGrammar
