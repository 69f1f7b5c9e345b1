import InjectionGrammar.Json.Reader
import InjectionGrammar.Proofs.Outcome

/-! What readers yield, whatever the text: conditions on items, members and fields carry over to the
lists and records that are made of them. -/
namespace InjectionGrammar
namespace Json
variable {α β κ ν σ : Type} {P : α → Prop} {Q : β → Prop} {R : σ → Prop} {n : Nat}

/-- Whatever a reader yields fulfils a condition. -/
def Reader.Ensures (read : Reader α) (P : α → Prop) : Prop :=
  ∀ s a rest, read s = .ok (a, rest) → P a

theorem Reader.Ensures.mono {read : Reader α} {P' : α → Prop} (h : read.Ensures P)
    (hP : ∀ a, P a → P' a) : read.Ensures P' :=
  fun s a rest hs => hP a (h s a rest hs)

theorem Reader.Ensures.map {read : Reader α} {f : α → β} (h : read.Ensures P)
    (hf : ∀ a, P a → Q (f a)) : (read.map f).Ensures Q := by
  intro s b rest hs
  cases hr : read s with
  | error e => simp [Reader.map, hr, Except.map] at hs
  | ok p =>
    simp only [Reader.map, hr, Except.map, Except.ok.injEq, Prod.mk.injEq] at hs
    obtain ⟨rfl, -⟩ := hs
    exact hf p.1 (h s p.1 p.2 hr)

theorem ensures_true (read : Reader α) : read.Ensures fun _ => True :=
  fun _ _ _ _ => trivial

theorem bind_stop_ne_ok (x : Except Stop α) (p : α → Problem) (rest : α → List Char) (b : β) :
    (x >>= fun a => stop (p a) (rest a)) ≠ .ok b := by
  intro h
  obtain ⟨a, -, h⟩ := Except.bind_eq_ok.1 h
  cases h

/-- A value of the wrong kind is never accepted, whatever it is. -/
theorem wrongType_ne_ok (expected : String) (s : List Char) (a : α) : wrongType expected s ≠ .ok a := by
  unfold wrongType
  split
  · exact nofun
  · iterate 8
      split
      · first
        | exact bind_stop_ne_ok _ _ _ a
        | exact nofun
    exact nofun

theorem Reader.Ensures.run {read : Reader α} {text : String} {a : α} (h : read.Ensures P)
    (hr : read.run text = .ok a) : P a := by
  unfold Reader.run at hr
  obtain ⟨⟨a', rest⟩, hread, hend⟩ := Except.bind_eq_ok.1 (Except.mapError_eq_ok.1 hr)
  have ha : a' = a := by
    dsimp only at hend
    split at hend
    · exact Except.ok.inj hend
    · cases hend
  exact ha ▸ h _ _ _ hread

section Lists
variable {item : Reader α}

theorem readItems_ensures (h : item.Ensures P) : ∀ (fuel : Nat) (first : Bool),
    (readItems item fuel first).Ensures fun as => ∀ a ∈ as, P a := by
  intro fuel
  induction fuel with
  | zero => exact fun _ _ _ _ => nofun
  | succ fuel ih =>
    intro first s as rest hs
    rw [readItems] at hs
    obtain ⟨next, -, hs⟩ := Except.bind_eq_ok.1 hs
    cases next with
    | done r =>
      obtain ⟨rfl, -⟩ := Prod.mk.inj (Except.ok.inj hs)
      exact fun _ => nofun
    | item r =>
      obtain ⟨⟨a, r'⟩, ha, hs⟩ := Except.bind_eq_ok.1 hs
      obtain ⟨⟨as', r''⟩, has, hs⟩ := Except.bind_eq_ok.1 hs
      obtain ⟨rfl, -⟩ := Prod.mk.inj (Except.ok.inj hs)
      intro x hx
      rcases List.mem_cons.1 hx with rfl | hx
      · exact h _ _ _ ha
      · exact ih _ _ _ _ has x hx

/-- A list that is read consists of what its items are read to; it takes a level. -/
theorem readList_ensures (h : 0 < n → item.Ensures P) :
    (readList n item).Ensures fun as => 0 < n ∧ ∀ a ∈ as, P a := by
  intro s as rest hs
  unfold readList at hs
  split at hs
  · cases hs
  · split at hs
    · split at hs
      · cases hs
      · next hn =>
        have hpos : 0 < n := Nat.pos_of_ne_zero hn
        exact ⟨hpos, readItems_ensures (h hpos) _ _ _ _ _ hs⟩
    · exact absurd hs (wrongType_ne_ok _ _ _)

end Lists

section Pairs
variable {key : Reader κ} {value : Reader α}

theorem readEntries_ensures (h : value.Ensures P) : ∀ (fuel : Nat) (first : Bool),
    (readEntries key value fuel first).Ensures fun es => ∀ e ∈ es, P e.2 := by
  intro fuel
  induction fuel with
  | zero => exact fun _ _ _ _ => nofun
  | succ fuel ih =>
    intro first s es rest hs
    rw [readEntries] at hs
    obtain ⟨next, -, hs⟩ := Except.bind_eq_ok.1 hs
    cases next with
    | done r =>
      obtain ⟨rfl, -⟩ := Prod.mk.inj (Except.ok.inj hs)
      exact fun _ => nofun
    | item r =>
      obtain ⟨⟨k, r₁⟩, -, hs⟩ := Except.bind_eq_ok.1 hs
      obtain ⟨r₂, -, hs⟩ := Except.bind_eq_ok.1 hs
      obtain ⟨⟨v, r₃⟩, hv, hs⟩ := Except.bind_eq_ok.1 hs
      obtain ⟨⟨es', r₄⟩, hes, hs⟩ := Except.bind_eq_ok.1 hs
      obtain ⟨rfl, -⟩ := Prod.mk.inj (Except.ok.inj hs)
      intro e he
      rcases List.mem_cons.1 he with rfl | he
      · exact h _ _ _ hv
      · exact ih _ _ _ _ hes e he

/-- An object that is read consists of what its values are read to; it takes a level. -/
theorem readPairs_ensures (h : 0 < n → value.Ensures P) :
    (readPairs n key value).Ensures fun es => 0 < n ∧ ∀ e ∈ es, P e.2 := by
  intro s es rest hs
  unfold readPairs at hs
  split at hs
  · cases hs
  · split at hs
    · split at hs
      · cases hs
      · next hn =>
        have hpos : 0 < n := Nat.pos_of_ne_zero hn
        exact ⟨hpos, readEntries_ensures (h hpos) _ _ _ _ _ hs⟩
    · exact absurd hs (wrongType_ne_ok _ _ _)

end Pairs

namespace Layout
variable {l : Layout σ}

/-- Every field changes a record of a kind to one of that kind. -/
def Keeps (l : Layout σ) (R : σ → Prop) : Prop :=
  ∀ f ∈ l.fields, f.read.Ensures fun change => ∀ a, R a → R (change a)

theorem readMembers_ensures (h : l.Keeps R) : ∀ (fuel : Nat) (first : Bool) (seen : List String)
    (a : σ), R a → (l.readMembers fuel first seen a).Ensures R := by
  intro fuel
  -- the record so far changes from member to member, so it is not fixed for the induction
  induction fuel with
  | zero => exact fun _ _ _ _ _ _ _ => nofun
  | succ fuel ih =>
    intro first seen a ha s b rest hs
    rw [readMembers] at hs
    obtain ⟨next, -, hs⟩ := Except.bind_eq_ok.1 hs
    cases next with
    | done r =>
      dsimp only at hs
      split at hs
      · cases hs
      · obtain ⟨rfl, -⟩ := Prod.mk.inj (Except.ok.inj hs)
        exact ha
    | item r =>
      obtain ⟨⟨key, r₁⟩, -, hs⟩ := Except.bind_eq_ok.1 hs
      dsimp only at hs
      split at hs
      · obtain ⟨r₂, -, hs⟩ := Except.bind_eq_ok.1 hs
        obtain ⟨r₃, -, hs⟩ := Except.bind_eq_ok.1 hs
        exact ih _ _ _ ha _ _ _ hs
      · next f hf =>
        split at hs
        · cases hs
        · obtain ⟨r₂, -, hs⟩ := Except.bind_eq_ok.1 hs
          obtain ⟨⟨change, r₃⟩, hchange, hs⟩ := Except.bind_eq_ok.1 hs
          have hkept := h f (List.mem_of_find?_eq_some hf) _ _ _ hchange a ha
          exact ih _ _ _ hkept _ _ _ hs

theorem readPlaces_ensures (h : l.Keeps R) : ∀ (fs : List (Field σ)), (∀ f ∈ fs, f ∈ l.fields) →
    ∀ a, R a → (l.readPlaces fs a).Ensures R := by
  intro fs
  induction fs with
  | nil =>
    intro _ a ha s b rest hs
    rw [readPlaces] at hs
    cases he : readEnd s with
    | error e => simp [he, Except.map] at hs
    | ok r =>
      simp only [he, Except.map, Except.ok.injEq, Prod.mk.injEq] at hs
      exact hs.1 ▸ ha
  | cons f fs ih =>
    intro hfs a ha s b rest hs
    rw [readPlaces] at hs
    obtain ⟨next, -, hs⟩ := Except.bind_eq_ok.1 hs
    cases next with
    | done r =>
      dsimp only at hs
      split at hs
      · obtain ⟨rfl, -⟩ := Prod.mk.inj (Except.ok.inj hs)
        exact ha
      · cases hs
    | item r =>
      obtain ⟨⟨change, r₁⟩, hchange, hs⟩ := Except.bind_eq_ok.1 hs
      have hkept := h f (hfs f List.mem_cons_self) _ _ _ hchange a ha
      exact ih (fun f' hf' => hfs f' (List.mem_cons_of_mem _ hf')) _ hkept _ _ _ hs

/-- A record that is read is of a kind that the initial one is of and every field keeps. It takes a
level. -/
theorem read_ensures (hinitial : 0 < n → R l.initial) (h : 0 < n → l.Keeps R) :
    (l.read n).Ensures fun a => 0 < n ∧ R a := by
  intro s a rest hs
  unfold read at hs
  split at hs
  · cases hs
  · split at hs
    · split at hs
      · cases hs
      · next hn =>
        have hpos : 0 < n := Nat.pos_of_ne_zero hn
        refine ⟨hpos, ?_⟩
        split at hs
        · exact readPlaces_ensures (h hpos) _ (fun _ hf => hf) _ (hinitial hpos) _ _ _ hs
        · exact readMembers_ensures (h hpos) _ _ _ _ (hinitial hpos) _ _ _ hs
    · exact absurd hs (wrongType_ne_ok _ _ _)

end Layout
end Json
end InjectionGrammar
