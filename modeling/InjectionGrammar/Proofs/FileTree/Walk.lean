import InjectionGrammar.FileTree
import Mathlib.Data.List.Basic

/-! Walking through a file tree: what a walk rests on, and that it is not led astray by entries put
where it does not pass. -/
namespace InjectionGrammar
namespace FileTree
variable {t t' : FileTree} {p q : Place} {name : String} {names names' : List String}
  {e : Entry}

theorem entry?_root (t : FileTree) : t.entry? [] = some .directory := by
  unfold entry?
  simp

theorem entry?_workplace (t : FileTree) : t.entry? workplace = some .directory := by
  unfold entry?
  simp

theorem entry?_put (t : FileTree) (p q : Place) (e : Entry) :
    entry? (t.put p e) q =
      if p = q ∧ q ≠ [] ∧ q ≠ workplace then some e else t.entry? q := by
  unfold entry? put
  rw [OrderedMap.get?_insert]
  by_cases hq : q = [] ∨ q = workplace
  · rw [if_pos hq, if_pos hq, if_neg]
    tauto
  · rw [if_neg hq, if_neg hq]
    simp_all

/-- What is no directory can be replaced. -/
theorem entry?_put_self (h : t.entry? p ≠ some .directory) : entry? (t.put p e) p = some e := by
  rw [entry?_put, if_pos]
  refine ⟨rfl, ?_, ?_⟩
  · rintro rfl
    exact h (entry?_root t)
  · rintro rfl
    exact h (entry?_workplace t)

theorem enter_eq_ok : t.enter p name = .ok q ↔
    t.entry? p = some .directory ∧
      (name = "." ∧ q = p ∨ name = ".." ∧ q = p.dropLast ∨
        name ≠ "." ∧ name ≠ ".." ∧ name.utf8ByteSize ≤ longestName ∧ q = p ++ [name]) := by
  unfold enter
  cases t.entry? p with
  | none => simp
  | some e =>
    cases e with
    | file c => simp
    | directory =>
      by_cases h1 : name = "."
      · simp [h1, eq_comm]
      · by_cases h2 : name = ".."
        · simp [h2, eq_comm]
        · by_cases h3 : longestName < name.utf8ByteSize
          · simp [h1, h2, h3, Nat.not_le.2 h3]
          · simp [h1, h2, h3, eq_comm, Nat.not_lt.1 h3]

theorem isDirectory_of_enter (h : t.enter p name = .ok q) : t.entry? p = some .directory :=
  (enter_eq_ok.1 h).1

theorem walk_cons : t.walk p (name :: names) = t.enter p name >>= fun q => t.walk q names := rfl

theorem walk_append (t : FileTree) (p : Place) (names names' : List String) :
    t.walk p (names ++ names') = t.walk p names >>= fun q => t.walk q names' :=
  List.foldlM_append ..

theorem walk_append_eq_ok : t.walk p (names ++ names') = .ok q ↔
    ∃ r, t.walk p names = .ok r ∧ t.walk r names' = .ok q := by
  rw [walk_append]
  cases t.walk p names <;> simp [bind, Except.bind]

theorem walk_singleton : t.walk p [name] = t.enter p name := by
  rw [walk_cons]
  cases t.enter p name <;> rfl

/-- The directories of a tree are directories of another, where other entries may differ. -/
def Keeps (t t' : FileTree) : Prop :=
  ∀ p, t.entry? p = some .directory → t'.entry? p = some .directory

theorem Keeps.enter (h : Keeps t t') (hp : t.enter p name = .ok q) : t'.enter p name = .ok q := by
  obtain ⟨hd, hq⟩ := enter_eq_ok.1 hp
  exact enter_eq_ok.2 ⟨h p hd, hq⟩

theorem Keeps.walk (h : Keeps t t') (hp : t.walk p names = .ok q) : t'.walk p names = .ok q := by
  induction names generalizing p with
  | nil => exact hp
  | cons name names ih =>
    rw [walk_cons] at hp ⊢
    cases he : t.enter p name with
    | error f => simp [he, bind, Except.bind] at hp
    | ok r =>
      rw [he] at hp
      rw [h.enter he]
      exact ih hp

theorem keeps_put (h : t.entry? p ≠ some .directory) : Keeps t (t.put p e) := by
  intro q hq
  rw [entry?_put, if_neg]
  · exact hq
  · rintro ⟨rfl, -, -⟩
    exact h hq

/-- Everything above a place is a directory. -/
def Grounded (t : FileTree) (p : Place) : Prop :=
  ∀ q, q <+: p → q ≠ p → t.entry? q = some .directory

theorem grounded_startOf (t : FileTree) (path : String) : t.Grounded (startOf path) := by
  intro q hq hne
  unfold startOf at hq hne
  split at hq
  · exact absurd (List.prefix_nil.1 hq) (by simp_all)
  · have hnil : q = [] := by
      rcases List.prefix_cons_iff.1 hq with hq | ⟨r, rfl, hr⟩
      · exact hq
      · simp_all [workplace]
    rw [hnil, entry?_root]

theorem Grounded.dropLast (h : t.Grounded p) : t.entry? p.dropLast = some .directory := by
  by_cases hp : p = []
  · rw [hp]
    exact entry?_root t
  · apply h _ (List.dropLast_prefix p)
    intro heq
    have hlen := congrArg List.length heq
    have hpos := List.length_pos_of_ne_nil hp
    rw [List.length_dropLast] at hlen
    omega

theorem Grounded.enter (h : t.Grounded p) (he : t.enter p name = .ok q) : t.Grounded q := by
  obtain ⟨hd, ⟨-, rfl⟩ | ⟨-, rfl⟩ | ⟨-, -, -, rfl⟩⟩ := enter_eq_ok.1 he
  · exact h
  · intro r hr hne
    by_cases heq : r = p
    · rw [heq]
      exact hd
    · exact h r (hr.trans (List.dropLast_prefix p)) heq
  · intro r hr hne
    rcases List.prefix_concat_iff.1 hr with rfl | hr
    · exact absurd rfl hne
    · by_cases heq : r = p
      · rw [heq]
        exact hd
      · exact h r hr heq

theorem Grounded.walk (h : t.Grounded p) (hw : t.walk p names = .ok q) : t.Grounded q := by
  induction names generalizing p with
  | nil => cases hw; exact h
  | cons name names ih =>
    rw [walk_cons] at hw
    cases he : t.enter p name with
    | error f => simp [he, bind, Except.bind] at hw
    | ok r =>
      rw [he] at hw
      exact ih (h.enter he) hw

/-- Names that lead to something other than a directory end in a name of its own. -/
theorem exists_last_name (h : t.Grounded p) (hp : t.entry? p = some .directory)
    (hw : t.walk p names = .ok q) (hq : t.entry? q ≠ some .directory) :
    ∃ front last r, names = front ++ [last] ∧ last ≠ "." ∧ last ≠ ".." ∧
      t.walk p front = .ok r ∧ t.entry? r = some .directory := by
  rcases List.eq_nil_or_concat' names with rfl | ⟨front, last, rfl⟩
  · cases hw
    exact absurd hp hq
  · obtain ⟨r, hr, hlast⟩ := walk_append_eq_ok.1 hw
    rw [walk_singleton] at hlast
    obtain ⟨hd, ⟨-, rfl⟩ | ⟨-, rfl⟩ | ⟨h1, h2, -, -⟩⟩ := enter_eq_ok.1 hlast
    · exact absurd hd hq
    · exact absurd (h.walk hr).dropLast hq
    · exact ⟨front, last, r, rfl, h1, h2, hr, hd⟩

end FileTree
end InjectionGrammar
