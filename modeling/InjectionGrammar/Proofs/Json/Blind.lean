import InjectionGrammar.Proofs.Json.Passing
import InjectionGrammar.Proofs.Json.Yield

/-! Readers that do not see in which order the members of objects stand. What is read is determined
by the value that a text spells; of the fault with which a text is refused nothing is said. -/
namespace InjectionGrammar
namespace Json
variable {α β : Type} {c : Char} {s t rest body : List Char} {v v' : Tree} {vs vs' : List Tree}
  {first : Bool} {fuel : Nat}

/-! Strings. -/

/-- What is read of a string is the same whatever comes behind it. -/
def Local (body : List Char) : Prop :=
  ∃ o : Option (List Char), ∀ rest, (readChars (body ++ '"' :: rest)).toOption =
    o.map fun cs => (cs, rest)

theorem local_consChar {u : List Char} (h : Local body)
    (hread : ∀ rest, readChars (u ++ '"' :: rest) = consChar c (readChars (body ++ '"' :: rest))) :
    Local u := by
  obtain ⟨o, ho⟩ := h
  refine ⟨o.map (c :: ·), ?_⟩
  intro rest
  rw [hread, consChar, Except.toOption_map, ho]
  cases o <;> rfl

theorem local_of_error {u : List Char} (h : ∀ rest p, readChars (u ++ '"' :: rest) ≠ .ok p) :
    Local u :=
  ⟨none, fun rest => Except.toOption_eq_none (h rest)⟩

theorem ne_u_of_unescape? {x : Char} (h : unescape? c = some x) : c ≠ 'u' := by
  rintro rfl
  cases h

/-- The first half of a surrogate pair wants the second, so that the fact is needed of what is
behind one more code. -/
theorem IsBody.local_behind (h : IsBody body) : Local body ∧
    ∀ a b c d s, body = '\\' :: 'u' :: a :: b :: c :: d :: s → Local s := by
  induction h with
  | nil => exact ⟨⟨some [], fun rest => by rw [List.nil_append, readChars_quote]; rfl⟩, nofun⟩
  | plain hquote hslash hcontrol _ ih =>
    refine ⟨local_consChar ih.1 fun rest => readChars_plain hquote hslash hcontrol _, ?_⟩
    intro a b c d s hs
    exact absurd (List.cons.inj hs).1 hslash
  | short hx _ ih =>
    have hu := ne_u_of_unescape? hx
    refine ⟨local_consChar ih.1 fun rest => readChars_short hu hx _, ?_⟩
    intro a b c d s hs
    exact absurd (List.cons.inj (List.cons.inj hs).2).1 hu
  | @code a b c d n s hn h ih =>
    refine ⟨?_, ?_⟩
    · by_cases htrailing : isTrailing n = true
      · refine local_of_error fun rest p => ?_
        simp only [List.cons_append]
        rw [readChars.eq_def]
        simp [hn, htrailing, stop]
      by_cases hleading : isLeading n = true
      · cases h with
        | nil =>
          refine local_of_error fun rest p => ?_
          simp only [List.cons_append, List.nil_append]
          rw [readChars.eq_def]
          simp [hn, htrailing, hleading, stopAt]
        | plain hquote hslash hcontrol h =>
          refine local_of_error fun rest p => ?_
          simp only [List.cons_append]
          rw [readChars.eq_def]
          simp [hn, htrailing, hleading, hslash, stopAt]
        | short hx h =>
          refine local_of_error fun rest p => ?_
          simp only [List.cons_append]
          rw [readChars.eq_def]
          simp [hn, htrailing, hleading, ne_u_of_unescape? hx, stopAt]
        | @code a' b' c' d' m s hm h =>
          by_cases hpair : isTrailing m = true
          · refine local_consChar (ih.2 a' b' c' d' s rfl) (c := ofSurrogates n m) fun rest => ?_
            simp only [List.cons_append]
            rw [readChars.eq_def]
            simp [hn, hm, htrailing, hleading, hpair]
          · refine local_of_error fun rest p => ?_
            simp only [List.cons_append]
            rw [readChars.eq_def]
            simp [hn, hm, htrailing, hleading, hpair, stop]
      · refine local_consChar ih.1 (c := Char.ofNat n) fun rest => ?_
        simp only [List.cons_append]
        rw [readChars.eq_def]
        simp [hn, htrailing, hleading]
    · rintro a b c d s hs
      simp only [List.cons.injEq, true_and] at hs
      obtain ⟨-, -, -, -, rfl⟩ := hs
      exact ih.1

theorem readQuoted_spelled (h : IsBody body) (rest : List Char) :
    (readQuoted (body ++ '"' :: rest)).toOption = (unescaped? body).map fun t => (t, rest) := by
  obtain ⟨o, ho⟩ := h.local_behind.1
  unfold unescaped? readQuoted
  rw [Except.toOption_map, Except.toOption_map, ho, ho]
  cases o <;> rfl

/-! Readers. -/

/-- From every text that spells a value the same is read, if anything, up to where it ends. -/
def Reads (read : Reader α) (v : Tree) (o : Option α) : Prop :=
  ∀ s rest, Spells v s rest → Ends rest → (read s).toOption = o.map fun a => (a, rest)

/-- From a value, and from the same with its members in another order, the same is read. -/
def Blind (read : Reader α) : Prop :=
  ∀ v v', Shuffled v v' → v.Distinct → ∃ o, Reads read v o ∧ Reads read v' o

/-- Some text makes a reader yield a value. -/
def Yields (read : Reader α) (a : α) : Prop :=
  ∃ s rest, read s = .ok (a, rest)

theorem Reads.yields {read : Reader α} {a : α} (h : Reads read v (some a)) (hs : Spells v s rest)
    (hrest : Ends rest) : Yields read a :=
  ⟨s, rest, Except.toOption_eq_some.1 (h s rest hs hrest)⟩

/-- What a blind reader reads can be taken to be something that it yields: of a value that no text
spells it may be said that nothing is read. -/
theorem Blind.exists_yields {read : Reader α} (h : Blind read) (hv : Shuffled v v')
    (hd : v.Distinct) :
    ∃ o, Reads read v o ∧ Reads read v' o ∧ ∀ a, o = some a → Yields read a := by
  obtain ⟨o, ho, ho'⟩ := h v v' hv hd
  by_cases hspelled : ∃ s rest, Ends rest ∧ (Spells v s rest ∨ Spells v' s rest)
  · refine ⟨o, ho, ho', ?_⟩
    rintro a rfl
    obtain ⟨s, rest, hrest, hs | hs⟩ := hspelled
    · exact ho.yields hs hrest
    · exact ho'.yields hs hrest
  · refine ⟨none, ?_, ?_, nofun⟩
    · intro s rest hs hrest
      exact absurd ⟨s, rest, hrest, .inl hs⟩ hspelled
    · intro s rest hs hrest
      exact absurd ⟨s, rest, hrest, .inr hs⟩ hspelled

theorem Reads.map {read : Reader α} {o : Option α} (h : Reads read v o) (f : α → β) :
    Reads (read.map f) v (o.map f) := by
  intro s rest hs hrest
  rw [Reader.map, Except.toOption_map, h s rest hs hrest]
  cases o <;> rfl

theorem Blind.map {read : Reader α} (h : Blind read) (f : α → β) : Blind (read.map f) := by
  intro v v' hv hd
  obtain ⟨o, ho, ho'⟩ := h v v' hv hd
  exact ⟨o.map f, ho.map f, ho'.map f⟩

/-! Whole texts. -/

theorem Reads.toOption_run {read : Reader α} {o : Option α} {text : String} (h : Reads read v o)
    (htext : IsText v text) : (read.run text).toOption = o := by
  obtain ⟨rest, hspells, hblank⟩ := htext
  have hrest : skipSpace rest = [] := by
    have hskip := skipSpace_blank hblank []
    rwa [List.append_nil] at hskip
  rw [Reader.run, Except.toOption_mapError, Except.toOption_bind,
    h _ rest hspells (ends_of_blank hblank)]
  cases o with
  | none => rfl
  | some a =>
    simp only [Option.map_some, Option.bind_some, hrest]
    rfl

theorem Blind.toOption_run {read : Reader α} {text text' : String} (h : Blind read)
    (htext : IsText v text) (htext' : IsText v' text') (hv : Shuffled v v') (hd : v.Distinct) :
    (read.run text).toOption = (read.run text').toOption := by
  obtain ⟨o, ho, ho'⟩ := h v v' hv hd
  rw [ho.toOption_run htext, ho'.toOption_run htext']

/-! Values by their first characters. -/

/-- The mark with which a value begins that is not a word. -/
def Tree.mark? : Tree → Option Char
  | .word _ => none
  | .string _ => some '"'
  | .array _ => some '['
  | .object _ => some '\x7b'

theorem Shuffled.mark? (h : Shuffled v v') : v'.mark? = v.mark? := by
  cases h <;> rfl

theorem Spells.mark (h : Spells v s rest) : ∃ c r, skipSpace s = c :: r ∧ Spells v (c :: r) rest ∧
    ∀ m ∈ ['"', '[', '\x7b'], c = m ↔ v.mark? = some m := by
  obtain ⟨c, r, hspace, htrim, -⟩ := h.trim
  refine ⟨c, r, hspace, htrim, ?_⟩
  cases v with
  | word w =>
    obtain ⟨hw, b, hb, rfl⟩ := h
    obtain ⟨c', r', rfl, hc', hmark⟩ := hw.head
    rw [skipSpace_blank hb, List.cons_append, skipSpace_of_not hc'] at hspace
    obtain ⟨rfl, -⟩ := List.cons.inj hspace
    simp_all [Tree.mark?]
  | string body =>
    rw [h.2.skipSpace rfl] at hspace
    obtain ⟨rfl, -⟩ := List.cons.inj hspace
    simp [Tree.mark?]
  | array vs =>
    obtain ⟨t, htoken, -⟩ := h
    rw [htoken.skipSpace rfl] at hspace
    obtain ⟨rfl, -⟩ := List.cons.inj hspace
    simp [Tree.mark?]
  | object ms =>
    obtain ⟨t, htoken, -⟩ := h
    rw [htoken.skipSpace rfl] at hspace
    obtain ⟨rfl, -⟩ := List.cons.inj hspace
    simp [Tree.mark?]

theorem reads_none {read : Reader α} (h : ∀ s rest p, Spells v s rest → read s ≠ .ok p) :
    Reads read v none := by
  intro s rest hs _
  exact Except.toOption_eq_none fun p => h s rest p hs

/-- A reader of values with one mark reads nothing of the others. -/
theorem blind_of_mark {read : Reader α} (mark : Char)
    (hothers : ∀ v, v.mark? ≠ some mark → Reads read v none)
    (h : ∀ v v', Shuffled v v' → v.Distinct → v.mark? = some mark →
      ∃ o, Reads read v o ∧ Reads read v' o) : Blind read := by
  intro v v' hv hd
  by_cases hmark : v.mark? = some mark
  · exact h v v' hv hd hmark
  · exact ⟨none, hothers v hmark, hothers v' (hv.mark? ▸ hmark)⟩

/-! Texts. -/

theorem reads_readString_none (h : v.mark? ≠ some '"') : Reads readString v none := by
  apply reads_none
  intro s rest p hs
  obtain ⟨c, r, hspace, -, hmark⟩ := hs.mark
  have hc : c ≠ '"' := fun hc => h ((hmark '"' (by simp)).1 hc)
  simp only [readString, hspace, if_neg hc]
  exact wrongType_ne_ok _ _ p

theorem reads_readString (body : List Char) :
    Reads readString (.string body) (unescaped? body) := by
  rintro s rest ⟨hbody, htoken⟩ -
  simp only [readString, htoken.skipSpace rfl]
  exact readQuoted_spelled hbody rest

theorem blind_readString : Blind readString := by
  refine blind_of_mark '"' (fun v => reads_readString_none) ?_
  intro v v' h _ hmark
  cases h with
  | string body => exact ⟨_, reads_readString body, reads_readString body⟩
  | _ => simp [Tree.mark?] at hmark

theorem IsLiteral.eq_null {w : List Char} (h : IsLiteral ('n' :: w)) :
    'n' :: w = ['n', 'u', 'l', 'l'] := by
  rcases h with (h | h | h) | ⟨sign, whole, fraction, power, h, hsign, ⟨hne, hdigits⟩, -⟩
  · exact h
  · cases h
  · cases h
  · obtain ⟨d, ds, rfl⟩ := List.exists_cons_of_ne_nil hne
    rcases hsign with rfl | rfl
    · exact absurd (List.cons.inj h).1.symm (ne_of_isDigit (hdigits d List.mem_cons_self) rfl)
    · cases h

/-- Of the values only null begins as it does. -/
theorem Spells.ne_n (h : Spells v s rest) (hnull : v ≠ .word ['n', 'u', 'l', 'l'])
    (hs : skipSpace s = c :: t) : c ≠ 'n' := by
  obtain ⟨c', r, hspace, -, hmark⟩ := h.mark
  obtain ⟨rfl, -⟩ := List.cons.inj (hspace.symm.trans hs)
  rintro rfl
  cases v with
  | word w =>
    obtain ⟨hw, b, hb, rfl⟩ := h
    obtain ⟨c, r', rfl, hc, -⟩ := hw.head
    rw [skipSpace_blank hb, List.cons_append, skipSpace_of_not hc] at hspace
    obtain ⟨rfl, -⟩ := List.cons.inj hspace
    exact hnull (congrArg Tree.word hw.eq_null)
  | _ => simp [Tree.mark?] at hmark

/-- A value that is not null is read as if it had to be a text. -/
theorem reads_readOptional {o : Option String} (h : Reads readString v o)
    (hnull : v ≠ .word ['n', 'u', 'l', 'l']) : Reads readOptional v (o.map some) := by
  intro s rest hs hrest
  obtain ⟨c, r, hspace, htrim, -⟩ := hs.trim
  have hc := hs.ne_n hnull hspace
  have hread := h.map some (c :: r) rest htrim hrest
  simpa only [readOptional, hspace, if_neg hc] using hread

theorem reads_readOptional_null : Reads readOptional (.word ['n', 'u', 'l', 'l']) (some none) := by
  rintro s rest ⟨-, b, hb, rfl⟩ -
  rw [readOptional, skipSpace_blank hb]
  rfl

theorem blind_readOptional : Blind readOptional := by
  intro v v' h hd
  by_cases hnull : v = .word ['n', 'u', 'l', 'l']
  · subst hnull
    cases h
    exact ⟨_, reads_readOptional_null, reads_readOptional_null⟩
  · have hnull' : v' ≠ .word ['n', 'u', 'l', 'l'] := by
      rintro rfl
      cases h
      exact hnull rfl
    obtain ⟨o, ho, ho'⟩ := blind_readString v v' h hd
    exact ⟨o.map some, reads_readOptional ho hnull, reads_readOptional ho' hnull'⟩

/-! Lists. -/

theorem allSome_cons (o : Option α) (os : List (Option α)) :
    (o :: os).allSome = o.bind fun a => os.allSome.map (a :: ·) := by
  rw [List.allSome, List.mapM_cons]
  cases o with
  | none => rfl
  | some a =>
    rw [Option.bind_some, Option.map_eq_bind]
    rfl

theorem nextItem_end (h : Token ']' s rest) : nextItem first s = .ok (.done rest) := by
  rw [nextItem, h.skipSpace rfl]
  rfl

theorem nextItem_spelled {r : List Char} (h : Follows first s t) (hs : skipSpace t = c :: r)
    (hc : c ≠ ']') : nextItem first s = .ok (.item (c :: r)) := by
  cases first with
  | true =>
    obtain rfl : s = t := h
    simp [nextItem, hs, hc]
  | false =>
    have hspace := Token.skipSpace h rfl
    simp [nextItem, hspace, hs, hc]

theorem length_le_sizeOfItems (vs : List Tree) : vs.length ≤ Tree.sizeOfItems vs := by
  induction vs with
  | nil => exact Nat.zero_le _
  | cons v vs ih =>
    have hpos : 1 ≤ v.size := by cases v <;> simp [Tree.size]
    rw [List.length_cons, Tree.sizeOfItems]
    omega

section Lists
variable {item : Reader α} {os : List (Option α)} {n : Nat}

theorem readItems_spelled (h : List.Forall₂ (Reads item) vs os) (hs : SpellsItems first vs s rest)
    (hfuel : vs.length < fuel) :
    (readItems item fuel first s).toOption = os.allSome.map fun as => (as, rest) := by
  induction h generalizing fuel first s with
  | nil =>
    obtain ⟨fuel, rfl⟩ := Nat.exists_eq_succ_of_ne_zero (Nat.ne_of_gt hfuel)
    rw [readItems, nextItem_end hs]
    rfl
  | @cons v o vs os hv hvs ih =>
    obtain ⟨fuel, rfl⟩ := Nat.exists_eq_succ_of_ne_zero (Nat.ne_of_gt (Nat.zero_lt_of_lt hfuel))
    obtain ⟨t, u, hfollows, hspells, hrest⟩ := hs
    obtain ⟨c, r, hspace, htrim, hc⟩ := hspells.trim
    have hread := hv (c :: r) u htrim (ends_of_items hrest)
    have hclose : c ≠ ']' := fun h => hc (by simp [h])
    rw [readItems, nextItem_spelled hfollows hspace hclose, Except.ok_bind]
    dsimp only
    rw [Except.toOption_bind, hread]
    cases o with
    | none => rfl
    | some a =>
      simp only [Option.map_some, Option.bind_some]
      rw [Except.toOption_bind, ih hrest (Nat.lt_of_succ_lt_succ hfuel), allSome_cons]
      cases os.allSome <;> rfl

/-- For each item what is read of it, in both values. -/
theorem exists_reads_items (hitem : Blind item) (h : List.Forall₂ Shuffled vs vs')
    (hd : Tree.DistinctItems vs) :
    ∃ os, List.Forall₂ (Reads item) vs os ∧ List.Forall₂ (Reads item) vs' os := by
  induction h with
  | nil => exact ⟨[], .nil, .nil⟩
  | cons hv _ ih =>
    obtain ⟨o, ho, ho'⟩ := hitem _ _ hv hd.1
    obtain ⟨os, hos, hos'⟩ := ih hd.2
    exact ⟨o :: os, .cons ho hos, .cons ho' hos'⟩

theorem reads_readList_none (h : v.mark? ≠ some '[') : Reads (readList n item) v none := by
  apply reads_none
  intro s rest p hs
  obtain ⟨c, r, hspace, -, hmark⟩ := hs.mark
  have hc : c ≠ '[' := fun hc => h ((hmark '[' (by simp)).1 hc)
  simp only [readList, hspace, if_neg hc]
  exact wrongType_ne_ok _ _ p

theorem reads_readList (h : List.Forall₂ (Reads item) vs os) :
    Reads (readList n item) (.array vs) (if n = 0 then none else os.allSome) := by
  rintro s rest ⟨t, htoken, hvs⟩ -
  have hsize := sizeOfItems_add_length_le vs true t rest hvs
  have hlength := length_le_sizeOfItems vs
  simp only [readList, htoken.skipSpace rfl, if_true]
  split
  · rfl
  · exact readItems_spelled h hvs (by omega)

theorem blind_readList (hitem : Blind item) : Blind (readList n item) := by
  refine blind_of_mark '[' (fun v => reads_readList_none) ?_
  intro v v' h hd hmark
  cases h with
  | array h =>
    obtain ⟨os, hos, hos'⟩ := exists_reads_items hitem h hd
    exact ⟨_, reads_readList hos, reads_readList hos'⟩
  | _ => simp [Tree.mark?] at hmark

end Lists

end Json
end InjectionGrammar
