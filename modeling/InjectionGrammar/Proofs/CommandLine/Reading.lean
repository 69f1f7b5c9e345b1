import InjectionGrammar.CommandLine
import InjectionGrammar.Proofs.Outcome

/-! Reading a command line word by word, and a flag that is added to one. -/
namespace InjectionGrammar
namespace CommandLine
namespace State
variable {st st' s : State} {word : String} {words before after : List String}

/-- Reads one word, other than two dashes alone. -/
def feed (st : State) (word : String) : Except Rejection State :=
  match word.toList with
  | '-' :: '-' :: cs =>
    st.readLong (String.ofList (cs.takeWhile (· ≠ '=')))
      (match cs.dropWhile (· ≠ '=') with
        | [] => none
        | _ :: v => some (String.ofList v))
  | '-' :: letter :: rest => st.readShort letter rest
  | _ => st.readValue word

theorem read_cons (hw : word ≠ "--") :
    st.read (word :: words) = (st.feed word >>= fun st => st.read words) := by
  have hl : word.toList ≠ ['-', '-'] := fun h => hw (String.toList_inj.1 h)
  rw [read.eq_def, feed]
  dsimp only
  split
  · next h => exact absurd h hl
  · next h =>
    rw [h]
    rfl
  · next h => simp only [h]
  · next h1 h2 h3 =>
    split
    · next h => exact absurd h (h2 _)
    · next h => exact absurd h (h3 _ _)
    · rfl

theorem read_dashes_cons (next : String) :
    st.read ("--" :: next :: words) = .error (.unexpectedArgument next) := by
  rw [read.eq_def]
  rfl

/-- Words are read up to a place, and the others from there on. -/
theorem read_append (hb : "--" ∉ before) :
    st.read (before ++ after) = (before.foldlM feed st >>= fun st => st.read after) := by
  induction before generalizing st with
  | nil => rfl
  | cons word before ih =>
    simp only [List.mem_cons, not_or] at hb
    rw [List.cons_append, read_cons (Ne.symm hb.1), List.foldlM_cons]
    cases hf : st.feed word with
    | error r => rfl
    | ok s => exact ih hb.2

/-- After a value has been taken up there is none to take up. -/
theorem settle_of_settle (h : st.settle = .ok s) : s.pending = none := by
  unfold settle at h
  split at h
  · next hp => cases h; exact hp
  · cases h
  · obtain ⟨a, -, h⟩ := Except.bind_eq_ok.1 h
    cases h
    rfl

theorem settle_of_pending (h : s.pending = none) : s.settle = .ok s := by
  simp [settle, h]

/-- It makes no difference whether a value is taken up now or by the next word. -/
theorem feed_settle (h : st.settle = .ok s) : st.feed word = s.feed word := by
  have hs := settle_of_pending (settle_of_settle h)
  have hlong : ∀ name value, st.readLong name value = s.readLong name value := by
    intro name value
    unfold readLong
    split <;> simp only [giveAttached, expectValue, raise, h, hs]
  have hshort : ∀ letter rest, st.readShort letter rest = s.readShort letter rest := by
    intro letter rest
    unfold readShort
    split
    · rfl
    · simp only [raise, h, hs]
    · split <;> simp only [giveAttached, expectValue, h, hs]
  have hvalue : st.readValue word = s.readValue word := by
    unfold readValue
    rw [settle_of_settle h]
    split
    · next hp => simp [settle, hp] at h
    · rfl
  unfold feed
  split
  · exact hlong _ _
  · exact hshort _ _
  · exact hvalue

theorem read_settle (h : st.settle = .ok s) : st.read words = s.read words := by
  cases words with
  | nil => exact h.trans (settle_of_pending (settle_of_settle h)).symm
  | cons word words =>
    by_cases hw : word = "--"
    · subst hw
      cases words with
      | nil => exact h.trans (settle_of_pending (settle_of_settle h)).symm
      | cons next words => rw [read_dashes_cons, read_dashes_cons]
    · rw [read_cons hw, read_cons hw, feed_settle h]

/-- The second state differs from the first in that checking has been asked for. -/
def Checked (st st' : State) : Prop :=
  st'.pending = st.pending ∧ st'.arguments = { st.arguments with check := true }

theorem give_checked {a b : Arguments} {setting : Setting} {value : String}
    (h : a.give setting value = .ok b) :
    b.check = a.check ∧
      Arguments.give { a with check := true } setting value = .ok { b with check := true } := by
  unfold Arguments.give at h ⊢
  split at h
  · cases h
  · next h1 =>
    split at h
    · cases h
    · next h2 =>
      cases h
      have h1' : ¬(Arguments.value? { a with check := true } setting).isSome = true := by
        cases setting <;> exact h1
      rw [if_neg h1', if_neg h2]
      cases setting <;> exact ⟨rfl, rfl⟩

theorem Checked.settle (hc : Checked st st') (h : st.settle = .ok s) :
    s.arguments.check = st.arguments.check ∧ ∃ s', st'.settle = .ok s' ∧ Checked s s' := by
  unfold State.settle at h ⊢
  rw [hc.1]
  split at h
  · cases h
    exact ⟨rfl, st', rfl, hc⟩
  · cases h
  · next setting value hp =>
    obtain ⟨a, ha, h⟩ := Except.bind_eq_ok.1 h
    cases h
    obtain ⟨hcheck, hgive⟩ := give_checked ha
    simp only [hc.2, hgive, Except.ok_bind]
    exact ⟨hcheck, _, rfl, rfl, rfl⟩

theorem Checked.giveAttached (hc : Checked st st') {setting : Setting} {value : String}
    (h : st.giveAttached setting value = .ok s) :
    s.arguments.check = st.arguments.check ∧
      ∃ s', st'.giveAttached setting value = .ok s' ∧ Checked s s' := by
  obtain ⟨s₁, h₁, h⟩ := Except.bind_eq_ok.1 h
  obtain ⟨a, ha, h⟩ := Except.bind_eq_ok.1 h
  cases h
  obtain ⟨hcheck, s₁', h₁', hc₁⟩ := hc.settle h₁
  obtain ⟨hcheck', hgive⟩ := give_checked ha
  refine ⟨hcheck'.trans hcheck, { s₁' with arguments := { a with check := true } }, ?_, hc₁.1, rfl⟩
  simp only [State.giveAttached, h₁', hc₁.2, hgive, Except.ok_bind]
  rfl

theorem Checked.expectValue (hc : Checked st st') {setting : Setting}
    (h : st.expectValue setting = .ok s) :
    s.arguments.check = st.arguments.check ∧
      ∃ s', st'.expectValue setting = .ok s' ∧ Checked s s' := by
  obtain ⟨s₁, h₁, h⟩ := Except.bind_eq_ok.1 h
  cases h
  obtain ⟨hcheck, s₁', h₁', hc₁⟩ := hc.settle h₁
  refine ⟨hcheck, { s₁' with pending := some (setting, none) }, ?_, rfl, hc₁.2⟩
  simp only [State.expectValue, h₁', Except.ok_bind]
  rfl

/-- Only the flag itself asks for checking. -/
theorem Checked.raise (hc : Checked st st') {f : Flag} (h : st.raise f = .ok s) :
    s.arguments.check = true ∨
      s.arguments.check = st.arguments.check ∧ ∃ s', st'.raise f = .ok s' ∧ Checked s s' := by
  obtain ⟨s₁, h₁, h⟩ := Except.bind_eq_ok.1 h
  obtain ⟨hcheck, s₁', h₁', hc₁⟩ := hc.settle h₁
  cases f with
  | help => cases h
  | version => cases h
  | check =>
    left
    dsimp only at h
    split at h
    · cases h
    · cases h
      rfl
  | stdout =>
    right
    dsimp only at h
    split at h
    · cases h
    · next hout =>
      cases h
      refine ⟨hcheck,
        { s₁' with arguments := { s₁.arguments with stdout := true, check := true } }, ?_,
        hc₁.1, rfl⟩
      simp only [State.raise, h₁', Except.ok_bind, hc₁.2, hout]
      rfl

theorem Checked.feed (hc : Checked st st') (h : st.feed word = .ok s) :
    s.arguments.check = true ∨
      s.arguments.check = st.arguments.check ∧ ∃ s', st'.feed word = .ok s' ∧ Checked s s' := by
  unfold State.feed at h ⊢
  split at h
  · unfold State.readLong at h ⊢
    split at h
    · cases h
    · exact .inr (hc.giveAttached h)
    · exact .inr (hc.expectValue h)
    · cases h
    · exact hc.raise h
  · unfold State.readShort at h ⊢
    split at h
    · cases h
    · exact hc.raise h
    · split at h
      · exact .inr (hc.expectValue h)
      · exact .inr (hc.giveAttached h)
  · unfold State.readValue at h ⊢
    rw [hc.1]
    split at h
    · cases h
      exact .inr ⟨rfl, _, rfl, rfl, hc.2⟩
    · cases h

/-- Checking stays asked for. -/
theorem check_read (h : st.read words = .ok s) (hst : st.arguments.check = true) :
    s.arguments.check = true := by
  have hc : Checked st st := by
    refine ⟨rfl, ?_⟩
    rw [← hst]
  induction words generalizing st with
  | nil => exact (hc.settle h).1.trans hst
  | cons word words ih =>
    by_cases hw : word = "--"
    · subst hw
      cases words with
      | nil => exact (hc.settle h).1.trans hst
      | cons next words => simp [read_dashes_cons] at h
    · rw [read_cons hw] at h
      obtain ⟨s₁, h₁, h⟩ := Except.bind_eq_ok.1 h
      have hs₁ : s₁.arguments.check = true := by
        rcases hc.feed h₁ with hs | ⟨hs, -⟩
        · exact hs
        · exact hs.trans hst
      apply ih h hs₁
      refine ⟨rfl, ?_⟩
      rw [← hs₁]

/-- Words that do not ask for checking are read in the same way where this has been done. -/
theorem Checked.read (hc : Checked st st') (h : st.read words = .ok s)
    (hs : s.arguments.check = false) : ∃ s', st'.read words = .ok s' ∧ Checked s s' := by
  induction words generalizing st st' with
  | nil => exact (hc.settle h).2
  | cons word words ih =>
    by_cases hw : word = "--"
    · subst hw
      cases words with
      | nil => exact (hc.settle h).2
      | cons next words => simp [read_dashes_cons] at h
    · rw [read_cons hw] at h ⊢
      obtain ⟨s₁, h₁, h⟩ := Except.bind_eq_ok.1 h
      rcases hc.feed h₁ with htrue | ⟨-, s₁', h₁', hc₁⟩
      · simp [check_read h htrue] at hs
      · rw [h₁']
        exact ih hc₁ h

/-- Behind two dashes there is nothing. -/
theorem not_dashes_of_read (h : st.read (before ++ word :: after) = .ok s) : "--" ∉ before := by
  induction before generalizing st with
  | nil => exact List.not_mem_nil
  | cons w before ih =>
    rw [List.cons_append] at h
    by_cases hw : w = "--"
    · subst hw
      cases before <;> simp [read_dashes_cons] at h
    · rw [read_cons hw] at h
      obtain ⟨s₁, -, h⟩ := Except.bind_eq_ok.1 h
      exact List.not_mem_cons_of_ne_of_not_mem (Ne.symm hw) (ih h)

theorem checked_of_raise (h : st.raise .check = .ok s) :
    ∃ s₁, st.settle = .ok s₁ ∧ Checked s₁ s := by
  obtain ⟨s₁, h₁, h⟩ := Except.bind_eq_ok.1 h
  dsimp only at h
  split at h
  · cases h
  · cases h
    exact ⟨s₁, h₁, rfl, rfl⟩

theorem feed_check (st : State) : st.feed "--check" = st.raise .check := rfl

end State

variable {a b : Arguments} {words before after : List String}

theorem parse_eq_ok : parse words = .ok a ↔
    ∃ s, State.start.read words = .ok s ∧ s.arguments = a ∧ (a.stdout && a.check) = false := by
  unfold parse
  rw [Except.bind_eq_ok]
  refine exists_congr fun s => and_congr_right fun _ => ?_
  cases hb : s.arguments.stdout && s.arguments.check with
  | true =>
    simp only [if_true, reduceCtorEq, false_iff]
    rintro ⟨rfl, h⟩
    simp [hb] at h
  | false =>
    simp only [Bool.false_eq_true, if_false]
    constructor
    · intro h
      cases h
      exact ⟨rfl, hb⟩
    · rintro ⟨rfl, -⟩
      rfl

/-- Where a command line is accepted with the flag for checking somewhere in it, it asks for the
same as without, and for checking. -/
theorem parse_insert_check (h : parse (before ++ after) = .ok a) (hc : a.check = false)
    (h' : parse (before ++ "--check" :: after) = .ok b) : b = { a with check := true } := by
  obtain ⟨s, hs, rfl, -⟩ := parse_eq_ok.1 h
  obtain ⟨s', hs', rfl, -⟩ := parse_eq_ok.1 h'
  have hb := State.not_dashes_of_read hs'
  rw [State.read_append hb] at hs hs'
  obtain ⟨st, hst, hs⟩ := Except.bind_eq_ok.1 hs
  obtain ⟨st', hst', hs'⟩ := Except.bind_eq_ok.1 hs'
  obtain rfl : st = st' := Except.ok.inj (hst.symm.trans hst')
  rw [State.read_cons (by decide), State.feed_check] at hs'
  obtain ⟨s₂, hraise, hs'⟩ := Except.bind_eq_ok.1 hs'
  obtain ⟨s₁, hsettle, hchecked⟩ := State.checked_of_raise hraise
  rw [State.read_settle hsettle] at hs
  obtain ⟨s'', hread, hfinal⟩ := hchecked.read hs hc
  obtain rfl : s'' = s' := Except.ok.inj (hread.symm.trans hs')
  exact hfinal.2

/-- In front the flag is accepted wherever it can be. -/
theorem parse_check_cons (h : parse words = .ok a) (hs : a.stdout = false) (hc : a.check = false) :
    parse ("--check" :: words) = .ok { a with check := true } := by
  obtain ⟨s, hread, rfl, -⟩ := parse_eq_ok.1 h
  have hraise : State.start.raise .check = .ok ⟨{ check := true }, none, true⟩ := rfl
  obtain ⟨s₁, hsettle, hchecked⟩ := State.checked_of_raise hraise
  obtain rfl : State.start = s₁ := Except.ok.inj hsettle
  obtain ⟨s', hread', hfinal⟩ := hchecked.read hread hc
  refine parse_eq_ok.2 ⟨s', ?_, hfinal.2, by simp [hs]⟩
  rw [State.read_cons (by decide), State.feed_check, hraise]
  exact hread'

end CommandLine
end InjectionGrammar
