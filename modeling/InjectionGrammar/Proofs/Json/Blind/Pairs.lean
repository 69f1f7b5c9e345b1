import InjectionGrammar.Proofs.Json.Blind
import InjectionGrammar.Proofs.OrderedMap
import Mathlib.Data.List.Perm.Basic

/-! Objects of which the keys are not known beforehand. As maps they are read blindly. -/
namespace InjectionGrammar
namespace Json
variable {α β κ ν : Type} {s t rest body : List Char} {ms ms' : List (List Char × Tree)}
  {v : Tree} {first : Bool} {fuel : Nat}

/-- From the text of a key, behind its quote, the same is read whatever comes behind it. -/
def ReadsKey (key : Reader κ) (body : List Char) (o : Option κ) : Prop :=
  IsBody body → ∀ rest, (key (body ++ '"' :: rest)).toOption = o.map fun k => (k, rest)

/-- A reader of keys takes keys that differ for values that differ: the name of what is read is the
key. -/
def ReadsNames (key : Reader κ) (name : κ → String) : Prop :=
  ∀ body, ∃ o, ReadsKey key body o ∧ ∀ k, o = some k → unescaped? body = some (name k)

theorem readsNames_readQuoted : ReadsNames readQuoted id := by
  intro body
  exact ⟨unescaped? body, fun h => readQuoted_spelled h, fun _ h => h⟩

theorem allSome_cons_eq_some {o : Option α} {os : List (Option α)} {bs : List α} :
    (o :: os).allSome = some bs ↔ ∃ a as, o = some a ∧ os.allSome = some as ∧ bs = a :: as := by
  rw [allSome_cons]
  cases o with
  | none => simp
  | some a => simp [Option.map_eq_some_iff, eq_comm]

theorem allSome_perm {os os' : List (Option α)} (h : os.Perm os') :
    Option.Rel List.Perm os.allSome os'.allSome := by
  induction h with
  | nil => exact .some .nil
  | cons o _ ih =>
    cases o with
    | none => exact .none
    | some a =>
      simp only [allSome_cons, Option.bind_some]
      generalize List.allSome _ = x at ih
      generalize List.allSome _ = y at ih
      cases ih with
      | none => exact .none
      | some h => exact .some (h.cons a)
  | swap o o' os =>
    cases o <;> cases o' <;> simp only [allSome_cons, Option.bind_some, Option.bind_none]
    case some.some a a' =>
      cases os.allSome with
      | none => exact .none
      | some as => exact .some (.swap a a' as)
    case some.none a => cases os.allSome <;> exact .none
    case none.some a' => cases os.allSome <;> exact .none
    case none.none => exact .none
  | @trans os₁ os₂ os₃ _ _ ih ih' =>
    generalize os₁.allSome = x at ih
    generalize os₂.allSome = y at ih ih'
    generalize os₃.allSome = z at ih'
    cases ih with
    | none => exact ih'
    | some h =>
      cases ih' with
      | some h' => exact .some (h.trans h')

/-- What is made of all values is the same in any order, if it is the same in any order of the
values. -/
theorem bind_allSome_perm {os os' : List (Option α)} {f : List α → Option β} (h : os.Perm os')
    (hf : ∀ as as', os.allSome = some as → as.Perm as' → f as = f as') :
    os.allSome.bind f = os'.allSome.bind f := by
  have hrel := allSome_perm h
  generalize os.allSome = x at hrel hf
  generalize os'.allSome = y at hrel
  cases hrel with
  | none => rfl
  | some h => exact hf _ _ rfl h

theorem nextMember_end (h : Token '\x7d' s rest) : nextMember first s = .ok (.done rest) := by
  rw [nextMember, h.skipSpace rfl]
  rfl

theorem nextMember_spelled {u : List Char} (h : Follows first s t) (hquote : Token '"' t u) :
    nextMember first s = .ok (.item u) := by
  have hspace := hquote.skipSpace rfl
  cases first with
  | true =>
    obtain rfl : s = t := h
    simp [nextMember, openKey, hspace]
  | false =>
    have hcomma := Token.skipSpace h rfl
    simp [nextMember, openKey, hcomma, hspace]

theorem colon_spelled (h : Token ':' s rest) : colon s = .ok rest := by
  rw [colon, h.skipSpace rfl]
  rfl

theorem length_le_sizeOfMembers (ms : List (List Char × Tree)) :
    ms.length ≤ Tree.sizeOfMembers ms := by
  induction ms with
  | nil => exact Nat.zero_le _
  | cons m ms ih =>
    obtain ⟨key, v⟩ := m
    have hpos : 1 ≤ v.size := by cases v <;> simp [Tree.size]
    rw [List.length_cons, Tree.sizeOfMembers]
    omega

section Pairs
variable {key : Reader κ} {name : κ → String} {value : Reader ν} {n : Nat}
  {os : List (Option (κ × ν))} {es : List (κ × ν)}

/-- What is read of a member, whose key is the name of what is read of it. -/
def ReadsEntry (key : Reader κ) (name : κ → String) (value : Reader ν) (m : List Char × Tree)
    (o : Option (κ × ν)) : Prop :=
  ∃ k? v?, ReadsKey key m.1 k? ∧ (∀ k, k? = some k → unescaped? m.1 = some (name k)) ∧
    Reads value m.2 v? ∧ o = k?.bind fun k => v?.map fun a => (k, a)

theorem readEntries_spelled (h : List.Forall₂ (ReadsEntry key name value) ms os)
    (hs : SpellsMembers first ms s rest) (hfuel : ms.length < fuel) :
    (readEntries key value fuel first s).toOption = os.allSome.map fun es => (es, rest) := by
  induction h generalizing fuel first s with
  | nil =>
    obtain ⟨fuel, rfl⟩ := Nat.exists_eq_succ_of_ne_zero (Nat.ne_of_gt hfuel)
    rw [readEntries, nextMember_end hs]
    rfl
  | @cons m o ms os hm _ ih =>
    obtain ⟨fuel, rfl⟩ := Nat.exists_eq_succ_of_ne_zero (Nat.ne_of_gt (Nat.zero_lt_of_lt hfuel))
    obtain ⟨k?, v?, hkey, -, hvalue, rfl⟩ := hm
    obtain ⟨hbody, t, u, x, y, hfollows, hquote, hcolon, hspells, hrest⟩ := hs
    have hk := hkey hbody u
    have hv := hvalue x y hspells (ends_of_members hrest)
    rw [readEntries, nextMember_spelled hfollows hquote, Except.ok_bind]
    dsimp only
    rw [Except.toOption_bind, hk, allSome_cons]
    cases k? with
    | none => rfl
    | some k =>
      simp only [Option.map_some, Option.bind_some]
      rw [colon_spelled hcolon, Except.ok_bind, Except.toOption_bind, hv]
      cases v? with
      | none => rfl
      | some a =>
        simp only [Option.map_some, Option.bind_some]
        rw [Except.toOption_bind, ih hrest (Nat.lt_of_succ_lt_succ hfuel)]
        cases os.allSome <;> rfl

/-- The keys of all members are the names of what is read of them. -/
theorem names_of_reads (h : List.Forall₂ (ReadsEntry key name value) ms os)
    (hes : os.allSome = some es) :
    (ms.filterMap fun m => unescaped? m.1) = es.map fun e => name e.1 := by
  induction h generalizing es with
  | nil =>
    obtain rfl := Option.some.inj hes
    rfl
  | @cons m o ms os hm _ ih =>
    obtain ⟨k?, v?, -, hname, -, rfl⟩ := hm
    obtain ⟨e, es, he, hall, rfl⟩ := allSome_cons_eq_some.1 hes
    obtain ⟨k, hk, hentry⟩ := Option.bind_eq_some_iff.1 he
    obtain ⟨a, -, rfl⟩ := Option.map_eq_some_iff.1 hentry
    simp only [List.filterMap_cons, hname k hk, ih hall, List.map_cons]

theorem exists_reads_entries (hkey : ReadsNames key name) (hvalue : Blind value)
    (h : List.Forall₂ ShuffledMember ms ms') (hd : Tree.DistinctMembers ms) :
    ∃ os, List.Forall₂ (ReadsEntry key name value) ms os ∧
      List.Forall₂ (ReadsEntry key name value) ms' os := by
  induction h with
  | nil => exact ⟨[], .nil, .nil⟩
  | cons hm _ ih =>
    obtain ⟨body, hv⟩ := hm
    obtain ⟨k?, hk, hname⟩ := hkey body
    obtain ⟨v?, ho, ho'⟩ := hvalue _ _ hv hd.1
    obtain ⟨os, hos, hos'⟩ := ih hd.2
    exact ⟨_ :: os, .cons ⟨k?, v?, hk, hname, ho, rfl⟩ hos,
      .cons ⟨k?, v?, hk, hname, ho', rfl⟩ hos'⟩

theorem reads_readPairs_none (h : v.mark? ≠ some '\x7b') :
    Reads (readPairs n key value) v none := by
  apply reads_none
  intro s rest p hs
  obtain ⟨c, r, hspace, -, hmark⟩ := hs.mark
  have hc : c ≠ '\x7b' := fun hc => h ((hmark '\x7b' (by simp)).1 hc)
  simp only [readPairs, hspace, if_neg hc]
  exact wrongType_ne_ok _ _ p

theorem reads_readPairs (h : List.Forall₂ (ReadsEntry key name value) ms os) :
    Reads (readPairs n key value) (.object ms) (if n = 0 then none else os.allSome) := by
  rintro s rest ⟨t, htoken, hms⟩ -
  have hsize := sizeOfMembers_add_length_le ms true t rest hms
  have hlength := length_le_sizeOfMembers ms
  simp only [readPairs, htoken.skipSpace rfl, if_true]
  split
  · rfl
  · exact readEntries_spelled h hms (by omega)

/-- A map does not depend on the order of the members that it is read from, since their keys
differ. -/
theorem blind_readPairs [KeyOrder κ] [DecidableEq κ] (hkey : ReadsNames key name)
    (hvalue : Blind value) : Blind ((readPairs n key value).map OrderedMap.ofList) := by
  refine blind_of_mark '\x7b' (fun v h => (reads_readPairs_none h).map _) ?_
  intro v v' h hd hmark
  cases h with
  | @object ms ms' ms'' h hperm =>
    obtain ⟨os, hos, hos'⟩ := exists_reads_entries hkey hvalue h hd.2
    obtain ⟨os', hos', hpermos⟩ := List.perm_comp_forall₂ hperm.symm hos'
    have hmaps : os'.allSome.map OrderedMap.ofList = os.allSome.map OrderedMap.ofList := by
      rw [Option.map_eq_bind, Option.map_eq_bind]
      refine (bind_allSome_perm hpermos.symm ?_).symm
      intro es es' hes hperm
      have hnames : (es.map fun e => name e.1).Nodup := names_of_reads hos hes ▸ hd.1
      have hkeys : (es.map (·.1)).Nodup := by
        refine List.Nodup.of_map name ?_
        rwa [List.map_map]
      exact congrArg some (OrderedMap.ofList_perm hperm hkeys)
    have hreads := (reads_readPairs (n := n) hos).map (OrderedMap.ofList)
    have hreads' := (reads_readPairs (n := n) hos').map (OrderedMap.ofList)
    refine ⟨_, hreads, ?_⟩
    convert hreads' using 1
    by_cases hn : n = 0
    · simp [hn]
    · simp [hn, hmaps]
  | _ => simp [Tree.mark?] at hmark

end Pairs

end Json
end InjectionGrammar
