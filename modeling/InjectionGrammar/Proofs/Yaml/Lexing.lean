import InjectionGrammar.Yaml.Scalar.Printer
import InjectionGrammar.Yaml.Token.Lexer
import Mathlib.Data.List.TakeWhile

/-! Texts that are split into tokens as they stand, and runs of steps through them. -/
namespace InjectionGrammar
namespace Yaml

namespace Mark
variable (m : Mark) (c : Char) (cs ds : List Char)

@[simp] theorem advance_nil : m.advance [] = m := rfl

theorem advance_cons : m.advance (c :: cs) = (m.next c).advance cs := by
  simp only [advance, next, byteLength, List.length_cons, mk.injEq, true_and]
  omega

theorem advance_append : m.advance (cs ++ ds) = (m.advance cs).advance ds := by
  simp only [advance, byteLength_append, List.length_append, mk.injEq, true_and]
  omega

end Mark

/-- A character that a text may hold, and that stays as it is. -/
def isKept (c : Char) : Bool :=
  isAllowed c && c != '\r' && c != '\u0085'

variable {c : Char} {s : List Char}

theorem isKept_of_ascii (hle : 0x20 ≤ c.toNat) (hlt : c.toNat ≤ 0x7e) : isKept c = true := by
  have hreturn : c ≠ '\r' := by
    rintro rfl
    exact absurd hle (by decide)
  have hnext : c ≠ '\u0085' := by
    rintro rfl
    exact absurd hlt (by decide)
  simp [isKept, isAllowed, hle, hlt, hreturn, hnext]

theorem isKept_of_isPrintable (h : Scalar.isPrintable c = true) : isKept c = true := by
  have hreturn : c ≠ '\r' := by
    rintro rfl
    exact absurd h (by decide)
  have hnext : c ≠ '\u0085' := by
    rintro rfl
    exact absurd h (by decide)
  have hallowed : isAllowed c = true := by
    simp only [Scalar.isPrintable, Bool.or_eq_true, Bool.and_eq_true, decide_eq_true_eq] at h
    simp only [isAllowed, Bool.or_eq_true, Bool.and_eq_true, decide_eq_true_eq, beq_iff_eq]
    rcases h with (((h | h) | h) | h) | h
    · simp [h]
    all_goals omega
  simp [isKept, hallowed, hreturn, hnext]

theorem eq_space_of_isPrintable (h : Scalar.isPrintable c = true) (hc : isSpaceOrTab c = true) :
    c = ' ' := by
  simp only [isSpaceOrTab, Bool.or_eq_true, decide_eq_true_eq] at hc
  rcases hc with rfl | rfl
  · rfl
  · exact absurd h (by decide)

theorem isAnyBreak_of_isPrintable (h : Scalar.isPrintable c = true) :
    Scalar.isAnyBreak c = isBreak c := by
  have hkept := isKept_of_isPrintable h
  simp only [isKept, Bool.and_eq_true, bne_iff_ne] at hkept
  simp [Scalar.isAnyBreak, hkept]

theorem isSpaceOrTab_of_isBreak (h : isBreak c = true) : isSpaceOrTab c = false := by
  simp only [isBreak, isSeparator, Bool.or_eq_true, decide_eq_true_eq] at h
  rcases h with rfl | rfl | rfl <;> decide

theorem atDocumentMark_of_ne (hdash : c ≠ '-') (hdot : c ≠ '.') :
    atDocumentMark (c :: s) = false := by
  unfold atDocumentMark
  split
  · next heq =>
    obtain ⟨rfl, -⟩ := List.cons.inj heq
    simp [hdash, hdot]
  · rfl

/-- A text that begins neither with a blank nor with a break. -/
def StartsLine (s : List Char) : Prop :=
  ∀ c ∈ s.head?, isSpaceOrTab c = false ∧ isBreak c = false

theorem readable_of_isKept (h : ∀ c ∈ s, isKept c = true) (filled : List Char) (room : Nat) :
    readable filled room s = (filled.reverse ++ s, true) := by
  induction s generalizing filled room with
  | nil => simp [readable]
  | cons c s ih =>
    have hc : isAllowed c = true := by
      have hkept := h c List.mem_cons_self
      simp only [isKept, Bool.and_eq_true] at hkept
      exact hkept.1.1
    have hs : ∀ c ∈ s, isKept c = true := fun x hx => h x (List.mem_cons_of_mem c hx)
    simp [readable, hc, ih hs]

theorem unifyBreaks_of_isKept (h : ∀ c ∈ s, isKept c = true) : unifyBreaks s = s := by
  induction s with
  | nil => rfl
  | cons c s ih =>
    have hc : c ≠ '\r' ∧ c ≠ '\u0085' := by
      have hkept := h c List.mem_cons_self
      simp only [isKept, Bool.and_eq_true, bne_iff_ne] at hkept
      exact ⟨hkept.1.2, hkept.2⟩
    rw [unifyBreaks.eq_def]
    split
    · next heq => cases heq
    · next heq => exact absurd (List.cons.inj heq).1 hc.1
    · next heq =>
      obtain ⟨rfl, rfl⟩ := List.cons.inj heq
      simp [hc, ih fun x hx => h x (List.mem_cons_of_mem _ hx)]

namespace Lexer
variable {l l' l'' l₁ l₂ l₃ last : Lexer} {b : List Char} {kinds kinds' : List Token.Kind}

/-! States and the pending keys in them. -/

/-- No pending key is required, so each of them can be given up. -/
def Free (l : Lexer) : Prop :=
  ∀ k ∈ l.key :: l.outerKeys, ∀ p ∈ k, p.required = false

/-- A character that is neither blank nor begins a comment. -/
def isSolid (c : Char) : Bool :=
  !isSpaceOrTab c && !isBreak c && c != '#' && c != '\ufeff'

theorem skipBlanks_solid (hs : s.head?.all isSolid = true) (hb : ∀ c ∈ b, c = ' ')
    (inFlow keyAllowed : Bool) (m : Mark) :
    skipBlanks inFlow keyAllowed false m (b ++ s) = (keyAllowed, ⟨m.advance b, s⟩) := by
  induction b generalizing m with
  | nil =>
    cases s with
    | nil => rfl
    | cons c s =>
      simp only [List.head?_cons, Option.all_some, isSolid, isSpaceOrTab, Bool.and_eq_true,
        Bool.not_eq_true', Bool.or_eq_false_iff, decide_eq_false_iff_not, bne_iff_ne] at hs
      simp [skipBlanks, hs]
  | cons d b ih =>
    have hspace : isBreak ' ' = false := by decide
    rw [hb d List.mem_cons_self, List.cons_append, skipBlanks, Mark.advance_cons]
    simp [hspace, ih fun x hx => hb x (List.mem_cons_of_mem d hx)]

/-- The lexer without its stale keys. -/
def fresh (l : Lexer) : Lexer :=
  { l with
    key := l.key.filter fun k => !k.isStale l.cursor.mark
    outerKeys := l.outerKeys.map (·.filter fun k => !k.isStale l.cursor.mark) }

theorem dropStale_of_free (h : l.Free) : l.dropStale = some l.fresh := by
  have hnone : ((l.key :: l.outerKeys).any fun k =>
      k.any fun k => k.isStale l.cursor.mark && k.required) = false := by
    rw [List.any_eq_false]
    intro k hk
    cases k with
    | none => simp
    | some p => simp [h _ hk p rfl]
  simp [dropStale, hnone, fresh]

theorem dropStale_of_none (hkey : l.key = none) (houter : ∀ k ∈ l.outerKeys, k = none) :
    l.dropStale = some l := by
  have hfree : l.Free := by
    intro k hk p hp
    rcases List.mem_cons.1 hk with rfl | hk
    · rw [hkey] at hp
      cases hp
    · rw [houter k hk] at hp
      cases hp
  have hfilter : l.outerKeys.map (·.filter fun k => !k.isStale l.cursor.mark) = l.outerKeys :=
    (List.map_congr_left fun k hk => by rw [houter k hk]; rfl).trans (List.map_id _)
  rw [dropStale_of_free hfree, fresh, hfilter]
  cases l
  cases hkey
  rfl

theorem eq_none_of_nil {ks : List (Option PendingKey)} (h : ks = []) : ∀ k ∈ ks, k = none := by
  rw [h]
  nofun

theorem dropStale_of_current {k : PendingKey} (hkey : l.key = some k)
    (hk : k.isStale l.cursor.mark = false) (houter : l.outerKeys = []) : l.dropStale = some l := by
  cases l
  cases hkey
  cases houter
  simp [dropStale, hk]

theorem dropKey_of_free (h : l.Free) : l.dropKey = some { l with key := none } := by
  have hnone : l.key.any (·.required) = false := by
    cases hk : l.key with
    | none => rfl
    | some p => simp [h l.key List.mem_cons_self p (by simp [hk])]
  simp [dropKey, hnone]

theorem dropKey_of_none (h : l.key = none) : l.dropKey = some l := by
  cases l
  cases h
  rfl

theorem Free.fresh (h : l.Free) : l.fresh.Free := by
  intro k hk p hp
  rcases List.mem_cons.1 hk with rfl | hk
  · exact h l.key List.mem_cons_self p (Option.filter_eq_some_iff.1 hp).1
  · obtain ⟨k', hk', rfl⟩ := List.mem_map.1 hk
    exact h k' (List.mem_cons_of_mem _ hk') p (Option.filter_eq_some_iff.1 hp).1

theorem free_of_none (hkey : l.key = none) (houter : l.outerKeys = []) : l.Free := by
  intro k hk p hp
  rw [houter, List.mem_singleton] at hk
  rw [hk, hkey] at hp
  cases hp

theorem Free.withoutKey (h : l.Free) : Free { l with key := none } := by
  intro k hk p hp
  rcases List.mem_cons.1 hk with rfl | hk
  · cases hp
  · exact h k (List.mem_cons_of_mem _ hk) p hp

/-- The lexer with the place of a key noted, where one may begin. -/
def noted (l : Lexer) : Lexer :=
  { l with key := if l.keyAllowed then some ⟨l.tokens.length, l.cursor.mark, false⟩ else l.key }

/-- A key that begins at another column than the block around it is not required. -/
theorem saveKey_of_free (h : l.Free) (hcolumn : l.columns.head? ≠ some l.cursor.mark.column) :
    l.saveKey = some l.noted := by
  unfold saveKey noted
  cases hallowed : l.keyAllowed with
  | false =>
    cases l
    cases hallowed
    rfl
  | true => simp [dropKey_of_free h, hcolumn, hallowed]

theorem Free.noted (h : l.Free) : l.noted.Free := by
  intro k hk p hp
  rcases List.mem_cons.1 hk with rfl | hk
  · unfold Lexer.noted at hp
    dsimp only at hp
    split at hp
    · cases hp
      rfl
    · exact h _ List.mem_cons_self p hp
  · exact h k (List.mem_cons_of_mem _ hk) p hp

theorem kinds_insertAt (h : l.tokens.map (·.kind) = kinds ++ kinds') (t : Token) :
    (l.insertAt kinds.length t).tokens.map (·.kind) = kinds ++ t.kind :: kinds' := by
  simp only [insertAt, List.map_append, List.map_take, List.map_cons, List.map_drop, h]
  rw [List.take_left, List.drop_left]

/-! Steps. -/

/-- No block is right of the first column. -/
theorem closeBlocks_of_columns (h : ∀ k ∈ l.columns, k = 0) (column : Nat) :
    l.closeBlocks (some column) = l := by
  cases l with
  | mk cursor tokens columns =>
    cases columns with
    | nil => simp [closeBlocks]
    | cons k ks =>
      obtain rfl := h k List.mem_cons_self
      simp [closeBlocks]

theorem step_of_read (hskip : l.skip.dropStale = some l₁) (hcolumns : ∀ k ∈ l₁.columns, k = 0)
    (hread : l₁.readToken = some l₂) (hfresh : l₂.dropStale = some l₃) : l.step = some l₃ := by
  simp [Lexer.step, hskip, closeBlocks_of_columns hcolumns, hread, hfresh]

theorem readStreamEnd_of_free (hfree : l.Free) (hflow : l.inFlow = false) :
    ∃ last, l.readStreamEnd = some last ∧ last.ended = true ∧ last.Free ∧
      last.tokens.map (·.kind) =
        l.tokens.map (·.kind) ++ l.columns.map (fun _ => .blockEnd) ++ [.streamEnd] := by
  unfold readStreamEnd
  dsimp only
  -- the place of the end makes no difference to what is read
  generalize hl' : (if l.cursor.mark.column = 0 then l
    else { l with cursor := ⟨l.cursor.mark.nextLine, []⟩ }) = l'
  have hsame : l'.columns = l.columns ∧ l'.inFlow = false ∧ l'.Free ∧ l'.tokens = l.tokens := by
    subst hl'
    split
    · exact ⟨rfl, hflow, hfree, rfl⟩
    · exact ⟨rfl, hflow, hfree, rfl⟩
  obtain ⟨hcolumns, hflow', hfree', htokens⟩ := hsame
  have hclosed : (l'.closeBlocks none).Free := by
    rw [closeBlocks, if_neg (by simp [hflow'])]
    exact hfree'
  have hends : (l'.closeBlocks none).tokens.map (·.kind) =
      l.tokens.map (·.kind) ++ l.columns.map fun _ => .blockEnd := by
    have hall : l'.columns.takeWhile (fun _ => true) = l.columns :=
      hcolumns ▸ List.takeWhile_eq_self_iff.2 fun _ _ => rfl
    rw [closeBlocks, if_neg (by simp [hflow'])]
    simp only [Option.all_none, hall, htokens, List.map_append, List.map_map]
    rfl
  rw [dropKey_of_free hclosed]
  refine ⟨_, rfl, rfl, hclosed.withoutKey, ?_⟩
  simp [pushShort, push, setKeyAllowed, hends]

/-! Runs. -/

/-- The second lexer comes from the first by steps that each take away something of the text. -/
inductive Leads : Lexer → Lexer → Prop where
  | refl (l : Lexer) : Leads l l
  | step {l next l' : Lexer} (hstep : l.step = some next) (hend : next.ended = false)
      (hlt : next.cursor.rest.length < l.cursor.rest.length) (h : Leads next l') : Leads l l'

theorem Leads.trans (h : l.Leads l') (h' : l'.Leads l'') : l.Leads l'' := by
  induction h with
  | refl => exact h'
  | step hstep hend hlt _ ih => exact .step hstep hend hlt (ih h')

theorem Leads.single (hstep : l.step = some l') (hend : l'.ended = false)
    (hlt : l'.cursor.rest.length < l.cursor.rest.length) : l.Leads l' :=
  .step hstep hend hlt (.refl l')

/-- A run with enough fuel for what is left of the text passes through every state that it leads
to, with enough fuel again. -/
theorem Leads.run (h : l.Leads l') {fuel : Nat} (hfuel : l.cursor.rest.length < fuel) :
    ∃ fuel', l'.cursor.rest.length < fuel' ∧ l.run true fuel = l'.run true fuel' := by
  induction h generalizing fuel with
  | refl => exact ⟨fuel, hfuel, rfl⟩
  | @step l next l' hstep hend hlt _ ih =>
    obtain ⟨n, rfl⟩ := Nat.exists_eq_add_of_lt (Nat.zero_lt_of_lt hfuel)
    obtain ⟨fuel', hfuel', hrun⟩ := ih (show _ < 0 + n by omega)
    exact ⟨fuel', hfuel', by simpa [Lexer.run, hstep, hend] using hrun⟩

theorem run_of_end (hstep : l.step = some last) (hend : last.ended = true) {fuel : Nat}
    (hfuel : l.cursor.rest.length < fuel) : l.run true fuel = (last.tokens, true) := by
  obtain ⟨n, rfl⟩ := Nat.exists_eq_add_of_lt (Nat.zero_lt_of_lt hfuel)
  simp [Lexer.run, hstep, hend]

end Lexer

/-- The tokens of a text are those of the last state that its lexer gets to. -/
theorem tokens_of_leads {l last : Lexer} (hs : ∀ c ∈ s, isKept c = true)
    (h : (Lexer.ofChars s).Leads l) (hstep : l.step = some last) (hend : last.ended = true) :
    tokens (String.ofList s) = (last.tokens, true) := by
  obtain ⟨fuel, hfuel, hrun⟩ := h.run (Nat.lt_succ_self s.length)
  simp only [tokens, String.toList_ofList, readable_of_isKept hs, List.reverse_nil,
    List.nil_append, unifyBreaks_of_isKept hs]
  exact hrun.trans (Lexer.run_of_end hstep hend hfuel)

end Yaml
end InjectionGrammar
