import InjectionGrammar.Proofs.Json.Tree

/-! Every value that a text spells is passed over, whatever it is. -/
namespace InjectionGrammar
namespace Json
variable {c : Char} {b ds s t rest w : List Char} {v : Tree} {vs : List Tree}
  {ms : List (List Char × Tree)} {opened : List Bracket} {fuel : Nat} {first : Bool}

/-! Scalars. -/

theorem skipWord_append (w rest : List Char) : skipWord w (w ++ rest) = .ok rest := by
  induction w with
  | nil => rfl
  | cons c w ih => rw [List.cons_append, skipWord, if_pos rfl, ih]

/-- A text that does not begin with a digit. -/
def NoDigit (s : List Char) : Prop :=
  ∀ c r, s = c :: r → c.isDigit = false

theorem dropWhile_digits (h : ∀ c ∈ ds, c.isDigit = true) (hs : NoDigit s) :
    (ds ++ s).dropWhile Char.isDigit = s := by
  rw [List.dropWhile_append_of_pos h]
  cases s with
  | nil => rfl
  | cons c r => rw [List.dropWhile_cons_of_neg (by simp [hs c r rfl])]

/-- What comes behind a value does not go on with a number. -/
theorem Ends.head (h : Ends (c :: s)) :
    c.isDigit = false ∧ c ≠ '.' ∧ isExponentMark c = false := by
  rcases h c s rfl with hc | rfl | rfl | rfl
  · simp only [isSpace, Bool.or_eq_true, decide_eq_true_eq] at hc
    rcases hc with ((rfl | rfl) | rfl) | rfl <;> decide
  all_goals decide

theorem Ends.noDigit (h : Ends s) : NoDigit s := by
  rintro c r rfl
  exact h.head.1

theorem isExponentMark_iff : isExponentMark c = true ↔ c = 'e' ∨ c = 'E' := by
  simp [isExponentMark]

theorem skipExponent_spelled {sign : List Char} (hsign : sign = [] ∨ sign = ['+'] ∨ sign = ['-'])
    (hds : IsDigits ds) (hrest : Ends rest) : skipExponent (sign ++ (ds ++ rest)) = .ok rest := by
  obtain ⟨hne, hdigits⟩ := hds
  obtain ⟨d, ds, rfl⟩ := List.exists_cons_of_ne_nil hne
  have hd := hdigits d List.mem_cons_self
  have hdrop : (ds ++ rest).dropWhile Char.isDigit = rest :=
    dropWhile_digits (fun c hc => hdigits c (List.mem_cons_of_mem d hc)) hrest.noDigit
  have hplus : ¬(d = '+' ∨ d = '-') := by
    simp [ne_of_isDigit hd]
  rcases hsign with rfl | rfl | rfl <;>
    simp [skipExponent, hplus, hd, hdrop]

/-- What comes behind the digits before an exponent, with the exponent if there is one. -/
theorem IsPower.cases_append (h : IsPower t) (hrest : Ends rest) : t ++ rest = [] ∧ rest = [] ∨
    ∃ c r, t ++ rest = c :: r ∧ c.isDigit = false ∧ c ≠ '.' ∧
      (if isExponentMark c then skipExponent r else .ok (c :: r)) = .ok rest := by
  rcases h with rfl | ⟨mark, sign, ds, hmark, hsign, hds, rfl⟩
  · cases rest with
    | nil => exact .inl ⟨rfl, rfl⟩
    | cons c r =>
      obtain ⟨hdigit, hpoint, hexponent⟩ := hrest.head
      exact .inr ⟨c, r, rfl, hdigit, hpoint, by simp [hexponent]⟩
  · have hskip := skipExponent_spelled hsign hds hrest
    refine .inr ⟨mark, _, rfl, ?_, ?_, by simp [hmark, hskip]⟩
    all_goals rcases isExponentMark_iff.1 hmark with rfl | rfl <;> decide

theorem skipNumber_spelled {whole fraction power : List Char} (hwhole : IsDigits whole)
    (hzero : whole.head? = some '0' → whole = ['0']) (hfraction : IsFraction fraction)
    (hpower : IsPower power) (hrest : Ends rest) :
    skipNumber (whole ++ (fraction ++ (power ++ rest))) = .ok rest := by
  obtain ⟨hne, hdigits⟩ := hwhole
  obtain ⟨d, ds, rfl⟩ := List.exists_cons_of_ne_nil hne
  have hd := hdigits d List.mem_cons_self
  have hpowered := hpower.cases_append hrest
  generalize power ++ rest = q at hpowered
  have hq : NoDigit q := by
    rintro c r rfl
    rcases hpowered with ⟨h, -⟩ | ⟨c', r', h, hdigit, -⟩
    · cases h
    · exact (List.cons.inj h).1 ▸ hdigit
  have hnodigit : NoDigit (fraction ++ q) := by
    rcases hfraction with rfl | ⟨ds, -, rfl⟩
    · exact hq
    · rintro c r hc
      obtain rfl := (List.cons.inj hc).1
      rfl
  have hdrop := dropWhile_digits hdigits hnodigit
  have hlead : ¬(d = '0' ∧ (ds ++ (fraction ++ q)).head?.any Char.isDigit) := by
    rintro ⟨rfl, hnext⟩
    obtain rfl := (List.cons.inj (hzero rfl)).2
    cases hs : fraction ++ q with
    | nil => simp [hs] at hnext
    | cons c r => simp [hs, hnodigit c r hs] at hnext
  rw [List.cons_append] at hdrop ⊢
  unfold skipNumber
  simp only [hd, Bool.not_true, if_neg hlead, hdrop]
  rcases hfraction with rfl | ⟨places, ⟨hplaces, hall⟩, rfl⟩
  · rcases hpowered with ⟨rfl, rfl⟩ | ⟨c, r, rfl, -, hpoint, hpowered⟩
    · rfl
    · simpa [hpoint] using hpowered
  · obtain ⟨p, ps, rfl⟩ := List.exists_cons_of_ne_nil hplaces
    have hp := hall p List.mem_cons_self
    have hdropped : (p :: (ps ++ q)).dropWhile Char.isDigit = q := dropWhile_digits hall hq
    simp only [List.cons_append, if_true, hdropped]
    rcases hpowered with ⟨rfl, rfl⟩ | ⟨c, r, rfl, -, -, hpowered⟩
    · rfl
    · simp only [List.head?_cons, Option.any_some, hp, if_true]
      exact hpowered

theorem skipChars_spelled (h : IsBody b) (rest : List Char) :
    skipChars (b ++ '"' :: rest) = .ok rest := by
  induction h with
  | nil =>
    rw [List.nil_append, skipChars.eq_def]
    rfl
  | plain hquote hslash hcontrol _ ih =>
    rw [List.cons_append, skipChars.eq_def]
    simp only [if_neg hquote, if_neg hslash, if_neg hcontrol, ih]
  | @short c x s hx _ ih =>
    have hu : c ≠ 'u' := by
      rintro rfl
      cases hx
    rw [List.cons_append, List.cons_append, skipChars.eq_def]
    simp [hu, hx, ih]
  | code hn _ ih =>
    simp only [List.cons_append]
    rw [skipChars.eq_def]
    simp [hn, ih]

theorem skipStart_word (hw : IsLiteral w) (hb : Blank b) (hrest : Ends rest) :
    skipStart (b ++ (w ++ rest)) = .ok (none, rest) := by
  have hwords := skipWord_append w rest
  rw [skipStart, skipSpace_blank hb]
  rcases hw with (rfl | rfl | rfl) |
    ⟨sign, whole, fraction, power, rfl, hsign, hwhole, hzero, hf, hp⟩
  · rfl
  · rfl
  · rfl
  · have hnumber := skipNumber_spelled hwhole hzero hf hp hrest
    simp only [List.append_assoc]
    rcases hsign with rfl | rfl
    · obtain ⟨hne, hdigits⟩ := hwhole
      obtain ⟨d, ds, rfl⟩ := List.exists_cons_of_ne_nil hne
      have hd := hdigits d List.mem_cons_self
      rw [List.nil_append, List.cons_append, skipSpace_of_not (by simp [isSpace, ne_of_isDigit hd])]
      rw [List.cons_append] at hnumber
      simp [ne_of_isDigit hd, hd, hnumber, Except.map]
    · rw [List.cons_append, skipSpace_of_not (by decide), List.nil_append]
      simp [hnumber, Except.map]

theorem skipStart_string (hb : IsBody b) (h : Token '"' s (b ++ '"' :: rest)) :
    skipStart s = .ok (none, rest) := by
  rw [skipStart, h.skipSpace rfl]
  simp [skipChars_spelled hb, Except.map]

theorem skipStart_array (h : Token '[' s t) : skipStart s = .ok (some .square, t) := by
  rw [skipStart, h.skipSpace rfl]
  simp

theorem skipStart_object (h : Token '\x7b' s t) : skipStart s = .ok (some .curly, t) := by
  rw [skipStart, h.skipSpace rfl]
  simp

/-! Containers. -/

/-- Goes on within the open containers, behind a value or behind the opening of the innermost. -/
def passOn (opened : List Bracket) (behindValue : Bool) (s : List Char) (fuel : Nat) :
    Except Stop (List Char) := do
  let (opened, s) ← skipEnds opened behindValue s
  match opened with
  | [] => .ok s
  | .square :: _ => skipWithin opened s fuel
  | .curly :: _ => do
    let s ← skipKey s
    skipWithin opened s fuel

theorem skipWithin_succ : skipWithin opened s (fuel + 1) = skipStart s >>= fun p =>
    passOn (p.1.toList ++ opened) p.1.isNone p.2 fuel := rfl

theorem skipWithin_scalar (h : skipStart s = .ok (none, rest)) :
    skipWithin opened s (fuel + 1) = passOn opened true rest fuel := by
  rw [skipWithin_succ, h]
  rfl

theorem skipWithin_container {k : Bracket} (h : skipStart s = .ok (some k, t)) :
    skipWithin opened s (fuel + 1) = passOn (k :: opened) false t fuel := by
  rw [skipWithin_succ, h]
  rfl

/-- The end of a container is the end of a value in the one around it. -/
theorem passOn_end {k : Bracket} {behind : Bool} (h : Token k.closing s rest) :
    passOn (k :: opened) behind s fuel = passOn opened true rest fuel := by
  have hends : skipEnds (k :: opened) behind s = skipEnds opened true rest := by
    rw [skipEnds, h.skipSpace (by cases k <;> rfl)]
    cases k <;> simp [Bracket.closing]
  unfold passOn
  rw [hends]

/-- In front of an item the containers stay open; blanks before the first item are dropped. -/
theorem skipEnds_item {k : Bracket} {r : List Char} (opened : List Bracket)
    (h : Follows first s t) (hs : skipSpace t = c :: r) (hc : c ≠ k.closing) :
    ∃ u, skipEnds (k :: opened) (!first) s = .ok (k :: opened, u) ∧ (u = t ∨ u = c :: r) := by
  cases first with
  | true =>
    obtain rfl : s = t := h
    exact ⟨c :: r, by simp [skipEnds, hs, hc], .inr rfl⟩
  | false =>
    have hspace := Token.skipSpace h rfl
    exact ⟨t, by simp [skipEnds, hspace], .inl rfl⟩

theorem skipKey_spelled {key x : List Char} (hs : skipSpace s = '"' :: (key ++ '"' :: t))
    (hkey : IsBody key) (hcolon : Token ':' t x) : skipKey s = .ok x := by
  have hspace := hcolon.skipSpace rfl
  simp [skipKey, hs, skipChars_spelled hkey, colon, hspace]

mutual

/-- The number of steps in which a value is passed over. -/
def Tree.size : Tree → Nat
  | .word _ => 1
  | .string _ => 1
  | .array vs => Tree.sizeOfItems vs + 1
  | .object ms => Tree.sizeOfMembers ms + 1

def Tree.sizeOfItems : List Tree → Nat
  | [] => 0
  | v :: vs => v.size + Tree.sizeOfItems vs

def Tree.sizeOfMembers : List (List Char × Tree) → Nat
  | [] => 0
  | (_, v) :: ms => v.size + Tree.sizeOfMembers ms

end

mutual

/-- A value is passed over in as many steps as it is large, whatever containers are open. -/
theorem skipWithin_spelled : ∀ (v : Tree) (opened : List Bracket) (s rest : List Char) (fuel : Nat),
    Spells v s rest → Ends rest →
      skipWithin opened s (fuel + v.size) = passOn opened true rest fuel
  | .word w, opened, s, rest, fuel, ⟨hw, b, hb, hs⟩, hrest => by
    rw [hs]
    exact skipWithin_scalar (skipStart_word hw hb hrest)
  | .string body, opened, s, rest, fuel, ⟨hbody, htoken⟩, _ =>
    skipWithin_scalar (skipStart_string hbody htoken)
  | .array vs, opened, s, rest, fuel, ⟨t, htoken, hvs⟩, hrest => by
    rw [Tree.size, ← Nat.add_assoc, skipWithin_container (skipStart_array htoken)]
    exact passOn_items vs true opened t rest fuel hvs hrest
  | .object ms, opened, s, rest, fuel, ⟨t, htoken, hms⟩, hrest => by
    rw [Tree.size, ← Nat.add_assoc, skipWithin_container (skipStart_object htoken)]
    exact passOn_members ms true opened t rest fuel hms hrest

theorem passOn_items : ∀ (vs : List Tree) (first : Bool) (opened : List Bracket)
    (s rest : List Char) (fuel : Nat), SpellsItems first vs s rest → Ends rest →
      passOn (.square :: opened) (!first) s (fuel + Tree.sizeOfItems vs) =
        passOn opened true rest fuel
  | [], first, opened, s, rest, fuel, h, _ => passOn_end h
  | v :: vs, first, opened, s, rest, fuel, ⟨t, u, hfollows, hv, hvs⟩, hrest => by
    obtain ⟨c, r, hspace, htrim, hc⟩ := hv.trim
    have hclose : c ≠ Bracket.square.closing := fun h => hc (by simp [h, Bracket.closing])
    obtain ⟨x, hends, hx⟩ := skipEnds_item opened hfollows hspace hclose
    have hvx : Spells v x u := by
      rcases hx with rfl | rfl <;> assumption
    have hstep := skipWithin_spelled v (.square :: opened) x u (fuel + Tree.sizeOfItems vs) hvx
      (ends_of_items hvs)
    unfold passOn
    rw [hends, Tree.sizeOfItems, Nat.add_comm v.size, ← Nat.add_assoc]
    exact hstep.trans (passOn_items vs false opened u rest fuel hvs hrest)

theorem passOn_members : ∀ (ms : List (List Char × Tree)) (first : Bool) (opened : List Bracket)
    (s rest : List Char) (fuel : Nat), SpellsMembers first ms s rest → Ends rest →
      passOn (.curly :: opened) (!first) s (fuel + Tree.sizeOfMembers ms) =
        passOn opened true rest fuel
  | [], first, opened, s, rest, fuel, h, _ => passOn_end h
  | (key, v) :: ms, first, opened, s, rest, fuel,
      ⟨hkey, t, u, x, y, hfollows, hquote, hcolon, hv, hms⟩, hrest => by
    have hspace := hquote.skipSpace rfl
    obtain ⟨z, hends, hz⟩ := skipEnds_item (k := .curly) opened hfollows hspace
      (by decide)
    have hzspace : skipSpace z = '"' :: (key ++ '"' :: u) := by
      rcases hz with rfl | rfl
      · exact hspace
      · exact skipSpace_of_not rfl _
    have hstep := skipWithin_spelled v (.curly :: opened) x y (fuel + Tree.sizeOfMembers ms) hv
      (ends_of_members hms)
    unfold passOn
    rw [hends, Tree.sizeOfMembers, Nat.add_comm v.size, ← Nat.add_assoc, Except.ok_bind]
    dsimp only
    rw [skipKey_spelled hzspace hkey hcolon]
    exact hstep.trans (passOn_members ms false opened y rest fuel hms hrest)

end

mutual

theorem size_add_length_le : ∀ (v : Tree) (s rest : List Char), Spells v s rest →
    v.size + rest.length ≤ s.length
  | .word w, s, rest, ⟨hw, b, _, hs⟩ => by
    obtain ⟨c, r, rfl, -⟩ := hw.head
    simp only [hs, Tree.size, List.length_append, List.length_cons]
    omega
  | .string body, s, rest, ⟨_, htoken⟩ => by
    have hlt := htoken.length_lt
    simp only [Tree.size, List.length_append, List.length_cons] at hlt ⊢
    omega
  | .array vs, s, rest, ⟨t, htoken, hvs⟩ => by
    have hlt := htoken.length_lt
    have hle := sizeOfItems_add_length_le vs true t rest hvs
    rw [Tree.size]
    omega
  | .object ms, s, rest, ⟨t, htoken, hms⟩ => by
    have hlt := htoken.length_lt
    have hle := sizeOfMembers_add_length_le ms true t rest hms
    rw [Tree.size]
    omega

theorem sizeOfItems_add_length_le : ∀ (vs : List Tree) (first : Bool) (s rest : List Char),
    SpellsItems first vs s rest → Tree.sizeOfItems vs + rest.length ≤ s.length
  | [], first, s, rest, h => by
    have hlt := Token.length_lt h
    rw [Tree.sizeOfItems]
    omega
  | v :: vs, first, s, rest, ⟨t, u, hfollows, hv, hvs⟩ => by
    have hle := hfollows.length_le
    have hvle := size_add_length_le v t u hv
    have hvsle := sizeOfItems_add_length_le vs false u rest hvs
    rw [Tree.sizeOfItems]
    omega

theorem sizeOfMembers_add_length_le : ∀ (ms : List (List Char × Tree)) (first : Bool)
    (s rest : List Char), SpellsMembers first ms s rest →
      Tree.sizeOfMembers ms + rest.length ≤ s.length
  | [], first, s, rest, h => by
    have hlt := Token.length_lt h
    rw [Tree.sizeOfMembers]
    omega
  | (key, v) :: ms, first, s, rest, ⟨_, t, u, x, y, hfollows, hquote, hcolon, hv, hms⟩ => by
    have hle := hfollows.length_le
    have hquotelt := hquote.length_lt
    have hcolonlt := hcolon.length_lt
    have hvle := size_add_length_le v x y hv
    have hmsle := sizeOfMembers_add_length_le ms false y rest hms
    simp only [Tree.sizeOfMembers, List.length_append, List.length_cons] at hquotelt ⊢
    omega

end

/-- A value of any kind is passed over, up to where its text ends. -/
theorem skipValue_spelled (h : Spells v s rest) (hrest : Ends rest) : skipValue s = .ok rest := by
  have hle := size_add_length_le v s rest h
  obtain ⟨fuel, hfuel⟩ : ∃ fuel, s.length + 1 = fuel + v.size :=
    ⟨s.length + 1 - v.size, by omega⟩
  rw [skipValue, hfuel, skipWithin_spelled v [] s rest fuel h hrest]
  rfl

end Json
end InjectionGrammar
