import InjectionGrammar.Proofs.Json.Blind.Pairs
import Mathlib.Data.List.Pairwise

/-! Records are read blindly if their fields are, and if what different fields change does not
depend on which of them is read first. -/
namespace InjectionGrammar
namespace Json
variable {σ : Type}

/-- Changes by two fields can be made in either order. -/
def Field.Independent (f f' : Field σ) : Prop :=
  ∀ c c', Yields f.read c → Yields f'.read c' → ∀ record, c (c' record) = c' (c record)

instance : Std.Symm (Field.Independent : Field σ → Field σ → Prop) where
  symm _ _ h c c' hc hc' record := (h c' c hc' hc record).symm

namespace Layout
variable {l : Layout σ} {v v' : Tree} {vs vs' : List Tree} {ms ms' : List (List Char × Tree)}
  {s rest : List Char} {first : Bool} {fuel n : Nat}

def Commutes (l : Layout σ) : Prop :=
  l.fields.Pairwise Field.Independent

/-! Objects. -/

/-- What becomes of a member: it is passed over, or its field changes the record. -/
inductive ReadsMember (l : Layout σ) :
    List Char × Tree → Option (Option (String × (σ → σ))) → Prop where
  | unnamed {body : List Char} (v : Tree) (hname : unescaped? body = none) :
      ReadsMember l (body, v) none
  | unknown {body : List Char} {name : String} (v : Tree) (hname : unescaped? body = some name)
      (hfield : l.fields.find? (·.name == name) = none) : ReadsMember l (body, v) (some none)
  | field {body : List Char} {name : String} {v : Tree} {f : Field σ} {c? : Option (σ → σ)}
      (hname : unescaped? body = some name)
      (hfield : l.fields.find? (·.name == name) = some f) (hreads : Reads f.read v c?)
      (hyields : ∀ c, c? = some c → Yields f.read c) :
      ReadsMember l (body, v) (c?.map fun c => some (name, c))

variable {os : List (Option (Option (String × (σ → σ))))}

/-- The record after the changes, if no field is missing then. -/
def finish (l : Layout σ) (seen : List String) (record : σ) (es : List (String × (σ → σ))) :
    Option σ :=
  if (l.missing? (es.reverse.map (·.1) ++ seen)).isSome then none
  else some (es.foldl (fun record e => e.2 record) record)

theorem finish_nil (seen : List String) (record : σ) :
    l.finish seen record [] = if (l.missing? seen).isSome then none else some record := rfl

theorem finish_cons (seen : List String) (record : σ) (e : String × (σ → σ))
    (es : List (String × (σ → σ))) :
    l.finish seen record (e :: es) = l.finish (e.1 :: seen) (e.2 record) es := by
  simp [finish]

/-- Members whose keys differ are read one after another. -/
theorem readMembers_spelled {seen : List String} {record : σ}
    (h : List.Forall₂ l.ReadsMember ms os) (hs : SpellsMembers first ms s rest)
    (hfuel : ms.length < fuel) (hnodup : (ms.filterMap fun m => unescaped? m.1).Nodup)
    (hseen : ∀ name ∈ ms.filterMap fun m => unescaped? m.1, name ∉ seen) :
    (l.readMembers fuel first seen record s).toOption =
      (os.allSome.bind fun es => l.finish seen record (es.filterMap id)).map
        fun a => (a, rest) := by
  induction h generalizing fuel first s seen record with
  | nil =>
    obtain ⟨fuel, rfl⟩ := Nat.exists_eq_succ_of_ne_zero (Nat.ne_of_gt hfuel)
    rw [readMembers, nextMember_end hs, Except.ok_bind]
    change _ = (l.finish seen record []).map _
    rw [finish_nil]
    cases l.missing? seen <;> rfl
  | @cons m o ms os hm _ ih =>
    obtain ⟨fuel, rfl⟩ := Nat.exists_eq_succ_of_ne_zero (Nat.ne_of_gt (Nat.zero_lt_of_lt hfuel))
    obtain ⟨hbody, t, u, x, y, hfollows, hquote, hcolon, hspells, hrest⟩ := hs
    have hfuel' := Nat.lt_of_succ_lt_succ hfuel
    have hkey := readQuoted_spelled hbody u
    rw [readMembers, nextMember_spelled hfollows hquote, Except.ok_bind, allSome_cons]
    dsimp only
    rw [Except.toOption_bind, hkey]
    cases hm with
    | unnamed v hname =>
      rw [hname]
      rfl
    | @unknown body name v hname hfield =>
      simp only [List.filterMap_cons, hname] at hnodup hseen
      simp only [hname, hfield, Option.map_some, Option.bind_some, colon_spelled hcolon,
        Except.ok_bind, skipValue_spelled hspells (ends_of_members hrest)]
      rw [ih hrest hfuel' (List.nodup_cons.1 hnodup).2
        fun x hx => hseen x (List.mem_cons_of_mem name hx)]
      cases os.allSome <;> rfl
    | @field body name v f c? hname hfield hreads hyields =>
      simp only [List.filterMap_cons, hname] at hnodup hseen
      obtain ⟨hfresh, hnodup⟩ := List.nodup_cons.1 hnodup
      have hnew : seen.contains name = false := by
        simpa using hseen name List.mem_cons_self
      have hread := hreads x y hspells (ends_of_members hrest)
      simp only [hname, hfield, hnew, Option.map_some, Option.bind_some, colon_spelled hcolon,
        Except.ok_bind, Bool.false_eq_true, if_false]
      rw [Except.toOption_bind, hread]
      cases c? with
      | none => rfl
      | some c =>
        simp only [Option.map_some, Option.bind_some]
        rw [ih hrest hfuel' hnodup]
        · cases os.allSome with
          | none => rfl
          | some es =>
            change (l.finish (name :: seen) (c record) (es.filterMap id)).map _ =
              (l.finish seen record ((name, c) :: es.filterMap id)).map _
            rw [finish_cons]
        · intro x hx hmem
          rcases List.mem_cons.1 hmem with rfl | hmem
          · exact hfresh hx
          · exact hseen x (List.mem_cons_of_mem name hx) hmem

theorem exists_reads_members (hfields : ∀ f ∈ l.fields, Blind f.read)
    (h : List.Forall₂ ShuffledMember ms ms') (hd : Tree.DistinctMembers ms) :
    ∃ os, List.Forall₂ l.ReadsMember ms os ∧ List.Forall₂ l.ReadsMember ms' os := by
  induction h with
  | nil => exact ⟨[], .nil, .nil⟩
  | cons hm _ ih =>
    obtain ⟨os, hos, hos'⟩ := ih hd.2
    obtain ⟨body, hv⟩ := hm
    cases hname : unescaped? body with
    | none => exact ⟨_ :: os, .cons (.unnamed _ hname) hos, .cons (.unnamed _ hname) hos'⟩
    | some name =>
      cases hfield : l.fields.find? (·.name == name) with
      | none =>
        exact ⟨_ :: os, .cons (.unknown _ hname hfield) hos, .cons (.unknown _ hname hfield) hos'⟩
      | some f =>
        have hf := List.mem_of_find?_eq_some hfield
        obtain ⟨c?, hc, hc', hyields⟩ := (hfields f hf).exists_yields hv hd.1
        exact ⟨_ :: os, .cons (.field hname hfield hc hyields) hos,
          .cons (.field hname hfield hc' hyields) hos'⟩

/-- The changes that are made are made by fields, at most one by each. -/
theorem fields_of_reads {es : List (Option (String × (σ → σ)))}
    (h : List.Forall₂ l.ReadsMember ms os) (hes : os.allSome = some es) :
    (∀ e ∈ es.filterMap id, ∃ f ∈ l.fields, f.name = e.1 ∧ Yields f.read e.2) ∧
      ((es.filterMap id).map (·.1)).Sublist (ms.filterMap fun m => unescaped? m.1) := by
  induction h generalizing es with
  | nil =>
    obtain rfl := Option.some.inj hes
    exact ⟨nofun, .slnil⟩
  | @cons m o ms os hm _ ih =>
    obtain ⟨e, es, he, hall, rfl⟩ := allSome_cons_eq_some.1 hes
    obtain ⟨hmade, hsublist⟩ := ih hall
    cases hm with
    | unnamed v hname => cases he
    | @unknown body name v hname hfield =>
      obtain rfl := Option.some.inj he
      simp only [List.filterMap_cons, hname, id]
      exact ⟨hmade, hsublist.cons name⟩
    | @field body name v f c? hname hfield hreads hyields =>
      obtain ⟨c, hc, rfl⟩ := Option.map_eq_some_iff.1 he
      have hfname : f.name = name := by simpa using List.find?_some hfield
      simp only [List.filterMap_cons, hname, id, List.map_cons]
      refine ⟨?_, hsublist.cons_cons name⟩
      intro e' he'
      rcases List.mem_cons.1 he' with rfl | he'
      · exact ⟨f, List.mem_of_find?_eq_some hfield, hfname, hyields c hc⟩
      · exact hmade e' he'

theorem missing?_congr {seen seen' : List String} (h : ∀ name, name ∈ seen ↔ name ∈ seen') :
    l.missing? seen = l.missing? seen' := by
  have hcontains : ∀ name, seen.contains name = seen'.contains name := by
    intro name
    rw [Bool.eq_iff_iff]
    simpa using h name
  simp only [missing?, hcontains]

/-- The changes by different fields make the same of a record in any order. -/
theorem finish_perm {es es' : List (String × (σ → σ))} {record : σ} (hcommutes : l.Commutes)
    (h : es.Perm es') (hnodup : (es.map (·.1)).Nodup)
    (hfields : ∀ e ∈ es, ∃ f ∈ l.fields, f.name = e.1 ∧ Yields f.read e.2) :
    l.finish [] record es = l.finish [] record es' := by
  have hmissing : l.missing? (es.reverse.map (·.1) ++ []) =
      l.missing? (es'.reverse.map (·.1) ++ []) := by
    apply missing?_congr
    intro name
    simp only [List.append_nil, List.mem_map, List.mem_reverse, h.mem_iff]
  have hfold : es.foldl (fun record e => e.2 record) record =
      es'.foldl (fun record e => e.2 record) record := by
    refine h.foldl_eq' ?_ record
    intro e he e' he' a
    by_cases hname : e.1 = e'.1
    · rw [List.inj_on_of_nodup_map hnodup he he' hname]
    · obtain ⟨f, hf, hfname, hyields⟩ := hfields e he
      obtain ⟨f', hf', hfname', hyields'⟩ := hfields e' he'
      have hne : f' ≠ f := by
        rintro rfl
        exact hname (hfname.symm.trans hfname')
      exact List.Pairwise.forall hcommutes hf' hf hne e'.2 e.2 hyields' hyields a
  rw [finish, finish, hmissing, hfold]

/-- An object is read as the record that its members make, if no two of them have the same key. -/
theorem reads_object (h : List.Forall₂ l.ReadsMember ms os)
    (hnodup : (ms.filterMap fun m => unescaped? m.1).Nodup) :
    Reads (l.read n) (.object ms) (if n = 0 then none else
      os.allSome.bind fun es => l.finish [] l.initial (es.filterMap id)) := by
  rintro s rest ⟨t, htoken, hms⟩ -
  have hsize := sizeOfMembers_add_length_le ms true t rest hms
  have hlength := length_le_sizeOfMembers ms
  simp only [read, htoken.skipSpace rfl, or_true, if_true]
  split
  · rfl
  · exact readMembers_spelled h hms (by omega) hnodup fun _ _ => nofun

/-! Arrays. -/

/-- From the items of an array the same record is read, if any. -/
def ReadsPlaces (l : Layout σ) (fs : List (Field σ)) (first : Bool) (record : σ) (vs : List Tree)
    (o : Option σ) : Prop :=
  ∀ s rest, SpellsItems first vs s rest →
    (l.readPlaces fs record s).toOption = o.map fun a => (a, rest)

theorem readEnd_of_items (h : SpellsItems first (v :: vs) s rest) (t : List Char) :
    readEnd s ≠ .ok t := by
  obtain ⟨u, x, hfollows, hv, -⟩ := h
  obtain ⟨c, r, hspace, -, hc⟩ := hv.trim
  simp only [List.mem_cons, List.not_mem_nil, or_false, not_or] at hc
  cases first with
  | true =>
    obtain rfl : s = u := hfollows
    simp [readEnd, hspace, hc, stopAt]
  | false =>
    have hcomma := Token.skipSpace hfollows rfl
    simp [readEnd, hcomma, hspace, stopAt]

theorem readsPlaces_cons {f : Field σ} {fs : List (Field σ)} {c? : Option (σ → σ)}
    {o : Option σ} {record : σ} (hplace : first = (l.fields.length - (f :: fs).length == 0))
    (hc : Reads f.read v c?)
    (h : ∀ c, c? = some c → l.ReadsPlaces fs false (c record) vs o) :
    l.ReadsPlaces (f :: fs) first record (v :: vs) (c?.bind fun _ => o) := by
  rintro s rest ⟨t, u, hfollows, hspells, hvs⟩
  obtain ⟨c, r, hspace, htrim, hmark⟩ := hspells.trim
  have hclose : c ≠ ']' := fun h => hmark (by simp [h])
  have hread := hc (c :: r) u htrim (ends_of_items hvs)
  rw [readPlaces]
  dsimp only
  rw [← hplace, nextItem_spelled hfollows hspace hclose, Except.ok_bind]
  dsimp only
  rw [Except.toOption_bind, hread]
  cases c? with
  | none => rfl
  | some change => exact h change rfl u rest hvs

/-- The induction is on the fields that are left; the first one of all is not behind a comma. -/
theorem exists_reads_places {fs : List (Field σ)} (hfields : ∀ f ∈ fs, Blind f.read)
    (h : List.Forall₂ Shuffled vs vs') (hd : Tree.DistinctItems vs)
    (hlength : fs.length ≤ l.fields.length)
    (hfirst : fs ≠ [] → first = (l.fields.length - fs.length == 0)) (record : σ) :
    ∃ o, l.ReadsPlaces fs first record vs o ∧ l.ReadsPlaces fs first record vs' o := by
  induction fs generalizing vs vs' first record with
  | nil =>
    cases h with
    | nil =>
      have hend : l.ReadsPlaces [] first record [] (some record) := by
        intro s rest hs
        rw [readPlaces, readEnd, Token.skipSpace hs rfl]
        rfl
      exact ⟨_, hend, hend⟩
    | cons _ _ =>
      refine ⟨none, ?_, ?_⟩
      all_goals
        intro s rest hs
        rw [readPlaces, Except.toOption_map, Except.toOption_eq_none (readEnd_of_items hs)]
        rfl
  | cons f fs ih =>
    have hplace := hfirst (List.cons_ne_nil f fs)
    cases h with
    | nil =>
      have hend : l.ReadsPlaces (f :: fs) first record []
          (if l.optional then some record else none) := by
        intro s rest hs
        rw [readPlaces]
        dsimp only
        rw [← hplace, nextItem_end hs, Except.ok_bind]
        dsimp only
        split <;> rfl
      exact ⟨_, hend, hend⟩
    | @cons v v' vs vs' hv hvs =>
      obtain ⟨c?, hc, hc'⟩ := hfields f List.mem_cons_self _ _ hv hd.1
      have hrest : ∃ o, ∀ c, c? = some c → l.ReadsPlaces fs false (c record) vs o ∧
          l.ReadsPlaces fs false (c record) vs' o := by
        cases c? with
        | none =>
          refine ⟨none, ?_⟩
          intro c hc
          cases hc
        | some c =>
          rw [List.length_cons] at hlength
          have hlater : fs ≠ [] → false = (l.fields.length - fs.length == 0) := by
            intro _
            simp only [Bool.false_eq, beq_eq_false_iff_ne]
            omega
          obtain ⟨o, ho⟩ := ih (fun f' hf' => hfields f' (List.mem_cons_of_mem f hf')) hvs hd.2
            (by omega) hlater (c record)
          exact ⟨o, fun c' hc' => Option.some.inj hc' ▸ ho⟩
      obtain ⟨o, ho⟩ := hrest
      exact ⟨_, readsPlaces_cons hplace hc fun c h => (ho c h).1,
        readsPlaces_cons hplace hc' fun c h => (ho c h).2⟩

theorem reads_array {o : Option σ} (h : l.ReadsPlaces l.fields true l.initial vs o) :
    Reads (l.read n) (.array vs) (if n = 0 then none else o) := by
  rintro s rest ⟨t, htoken, hvs⟩ -
  simp only [read, htoken.skipSpace rfl, true_or, if_true]
  split
  · rfl
  · exact h t rest hvs

theorem reads_none_of_mark (harray : v.mark? ≠ some '[') (hobject : v.mark? ≠ some '\x7b') :
    Reads (l.read n) v none := by
  apply reads_none
  intro s rest p hs
  obtain ⟨c, r, hspace, -, hmark⟩ := hs.mark
  have hc : ¬(c = '[' ∨ c = '\x7b') := by
    rintro (hc | hc)
    · exact harray ((hmark '[' (by simp)).1 hc)
    · exact hobject ((hmark '\x7b' (by simp)).1 hc)
  simp only [read, hspace, if_neg hc]
  exact wrongType_ne_ok _ _ p

theorem names_of_shuffled (h : List.Forall₂ ShuffledMember ms ms') :
    (ms.filterMap fun m => unescaped? m.1) = ms'.filterMap fun m => unescaped? m.1 := by
  induction h with
  | nil => rfl
  | cons hm _ ih =>
    obtain ⟨body, -⟩ := hm
    rw [List.filterMap_cons, List.filterMap_cons, ih]

/-- A record is read blindly, from an object as from an array. -/
theorem blind_read (hfields : ∀ f ∈ l.fields, Blind f.read) (hcommutes : l.Commutes) :
    Blind (l.read n) := by
  intro v v' h hd
  cases h with
  | word w => exact ⟨none, reads_none_of_mark nofun nofun, reads_none_of_mark nofun nofun⟩
  | string body =>
    have hnone : Reads (l.read n) (.string body) none :=
      reads_none_of_mark (by simp [Tree.mark?]) (by simp [Tree.mark?])
    exact ⟨none, hnone, hnone⟩
  | array h =>
    have hplace : l.fields ≠ [] → true = (l.fields.length - l.fields.length == 0) :=
      fun _ => by simp
    obtain ⟨o, ho, ho'⟩ := exists_reads_places hfields h hd (Nat.le_refl _) hplace l.initial
    exact ⟨_, reads_array ho, reads_array ho'⟩
  | @object ms ms' ms'' h hperm =>
    obtain ⟨os, hos, hos'⟩ := exists_reads_members hfields h hd.2
    obtain ⟨os', hos', hpermos⟩ := List.perm_comp_forall₂ hperm.symm hos'
    have hrecords : (os.allSome.bind fun es => l.finish [] l.initial (es.filterMap id)) =
        os'.allSome.bind fun es => l.finish [] l.initial (es.filterMap id) := by
      refine bind_allSome_perm hpermos.symm ?_
      intro es es' hes hpermes
      obtain ⟨hmade, hsublist⟩ := fields_of_reads hos hes
      exact finish_perm hcommutes (hpermes.filterMap id) (hd.1.sublist hsublist) hmade
    have hnodup : (ms''.filterMap fun m => unescaped? m.1).Nodup :=
      (hperm.filterMap _).nodup_iff.1 (names_of_shuffled h ▸ hd.1)
    refine ⟨_, reads_object hos hd.1, ?_⟩
    rw [hrecords]
    exact reads_object hos' hnodup

end Layout
end Json
end InjectionGrammar
