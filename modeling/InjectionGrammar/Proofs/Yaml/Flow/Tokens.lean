import InjectionGrammar.Proofs.Yaml.Flow
import InjectionGrammar.Proofs.Yaml.Scalar.Tokens

/-! A text in flow style is split into the tokens of its value. -/
namespace InjectionGrammar
namespace Yaml
namespace Lexer
variable {l l' : Lexer} {depth depth' : Nat} {allowed allowed' : Bool}
  {kinds kinds' : List Token.Kind} {c : Char} {s s' b rest : List Char}

/-- Where a lexer is in a text: how many flow collections are open, whether a key may come, which
tokens there are and what follows behind blanks. -/
structure Within (l : Lexer) (depth : Nat) (allowed : Bool) (kinds : List Token.Kind)
    (s : List Char) : Prop where
  rest : ∃ b, (∀ c ∈ b, c = ' ') ∧ l.cursor.rest = b ++ s
  kinds : l.tokens.map (·.kind) = kinds
  depth : l.outerKeys.length = depth
  allowed : l.keyAllowed = allowed
  columns : l.columns = []
  free : l.Free
  running : l.ended = false

theorem Within.blank (h : l.Within depth allowed kinds (' ' :: s)) :
    l.Within depth allowed kinds s := by
  obtain ⟨b, hb, hrest⟩ := h.rest
  refine { h with rest := ⟨b ++ [' '], ?_, by simp [hrest]⟩ }
  intro c hc
  rcases List.mem_append.1 hc with hc | hc
  · exact hb c hc
  · exact List.mem_singleton.1 hc

theorem Within.fresh (h : l.Within depth allowed kinds s) :
    l.fresh.Within depth allowed kinds s :=
  { h with depth := (List.length_map _).trans h.depth, free := h.free.fresh }

theorem Within.columns_eq_zero (h : l.Within depth allowed kinds s) : ∀ k ∈ l.columns, k = 0 := by
  rw [h.columns]
  nofun

theorem Within.head?_columns_ne (h : l.Within depth allowed kinds s) (column : Nat) :
    l.columns.head? ≠ some column := by
  rw [h.columns]
  nofun

theorem Within.inFlow (h : l.Within (depth + 1) allowed kinds s) : l.inFlow = true := by
  have hdepth := h.depth
  unfold Lexer.inFlow
  cases hk : l.outerKeys with
  | nil => simp [hk] at hdepth
  | cons k ks => rfl

theorem Within.skip_eq (h : l.Within depth allowed kinds s) (hs : s.head?.all isSolid = true) :
    ∃ m, l.skip = { l with cursor := ⟨m, s⟩ } ∧ (l.cursor.rest = s → m = l.cursor.mark) := by
  obtain ⟨b, hb, hrest⟩ := h.rest
  refine ⟨l.cursor.mark.advance b, by simp [skip, hrest, skipBlanks_solid hs hb], fun hrest' => ?_⟩
  rw [List.append_left_eq_self.1 (hrest.symm.trans hrest')]
  rfl

theorem Within.skip (h : l.Within depth allowed kinds s) (hs : s.head?.all isSolid = true) :
    l.skip.Within depth allowed kinds s ∧ l.skip.cursor.rest = s := by
  obtain ⟨m, hskip, -⟩ := h.skip_eq hs
  rw [hskip]
  exact ⟨{ h with rest := ⟨[], nofun, rfl⟩ }, rfl⟩

/-- A step reads the token that follows; blanks and stale keys aside, nothing comes before and
behind that. -/
theorem Within.leads {l₂ : Lexer} (h : l.Within depth allowed kinds (c :: s))
    (hc : isSolid c = true) (hread : l.skip.fresh.readToken = some l₂) (hfree : l₂.Free)
    (hrunning : l₂.ended = false) (hlength : l₂.cursor.rest.length ≤ s.length) :
    l.Leads l₂.fresh := by
  obtain ⟨hskip, -⟩ := h.skip hc
  refine .single ?_ hrunning ?_
  · exact step_of_read (dropStale_of_free hskip.free) hskip.fresh.columns_eq_zero hread
      (dropStale_of_free hfree)
  · obtain ⟨b, -, hrest⟩ := h.rest
    calc l₂.cursor.rest.length ≤ s.length := hlength
      _ < l.cursor.rest.length := by
        rw [hrest, List.length_append, List.length_cons]
        omega

theorem Within.step (h : l.Within depth allowed kinds (c :: s)) (hc : isSolid c = true)
    (hread : ∀ l₁ : Lexer, l₁.Within depth allowed kinds (c :: s) →
      l₁.cursor.rest = c :: s → ∃ l₂, l₁.readToken = some l₂ ∧
        l₂.Within depth' allowed' kinds' s' ∧ l₂.cursor.rest.length ≤ s.length) :
    ∃ l', l.Leads l' ∧ l'.Within depth' allowed' kinds' s' := by
  obtain ⟨hskip, hrest⟩ := h.skip hc
  obtain ⟨l₂, hl₂, hwithin, hlength⟩ := hread l.skip.fresh hskip.fresh hrest
  exact ⟨l₂.fresh, h.leads hc hl₂ hwithin.free hwithin.running hlength, hwithin.fresh⟩

theorem Within.noted (h : l.Within depth allowed kinds s) :
    l.noted.Within depth allowed kinds s :=
  { h with free := h.free.noted }

theorem Within.setKeyAllowed (h : l.Within depth allowed kinds s) (allowed' : Bool) :
    (l.setKeyAllowed allowed').Within depth allowed' kinds s :=
  { h with allowed := rfl }

theorem Within.withoutKey (h : l.Within depth allowed kinds s) :
    Within { l with key := none } depth allowed kinds s :=
  { h with free := h.free.withoutKey }

theorem Within.push (h : l.Within depth allowed kinds s') (kind : Token.Kind) (m : Mark) :
    (l.push kind ⟨m, s⟩).Within depth allowed (kinds ++ [kind]) s :=
  { h with
    rest := ⟨[], nofun, rfl⟩
    kinds := by simp [Lexer.push, h.kinds] }

theorem Within.pushShort (h : l.Within depth allowed kinds s') (hrest : l.cursor.rest = c :: s)
    (kind : Token.Kind) : (l.pushShort kind 1).Within depth allowed (kinds ++ [kind]) s := by
  have hpush := h.push (s := s) kind (l.cursor.mark.advance [c])
  simpa [Lexer.pushShort, Cursor.drop, hrest] using hpush

theorem length_pushShort_le (hrest : l.cursor.rest = c :: s) (kind : Token.Kind) :
    (l.pushShort kind 1).cursor.rest.length ≤ s.length := by
  simp [Lexer.pushShort, Lexer.push, Cursor.drop, hrest]

/-! The tokens, each at the place where it comes. -/

theorem Within.flowStart {kind : Token.Kind} (h : l.Within depth allowed kinds (c :: s))
    (hc : c = '[' ∧ kind = .flowSequenceStart ∨ c = '\x7b' ∧ kind = .flowMappingStart) :
    ∃ l', l.Leads l' ∧ l'.Within (depth + 1) true (kinds ++ [kind]) s := by
  refine h.step (by rcases hc with ⟨rfl, -⟩ | ⟨rfl, -⟩ <;> decide) fun l₁ h₁ hrest => ?_
  have hread : l₁.readToken = l₁.readFlowStart kind := by
    rcases hc with ⟨rfl, rfl⟩ | ⟨rfl, rfl⟩ <;> simp [readToken, hrest, atDocumentMark_of_ne]
  have hopened : Within { l₁.noted with outerKeys := l₁.noted.key :: l₁.outerKeys, key := none }
      (depth + 1) allowed kinds (c :: s) := by
    refine { h₁ with depth := congrArg (· + 1) h₁.depth, free := fun k hk p hp => ?_ }
    rcases List.mem_cons.1 hk with rfl | hk
    · cases hp
    · exact h₁.noted.free k hk p hp
  rw [hread, readFlowStart, saveKey_of_free h₁.free (h₁.head?_columns_ne _)]
  refine ⟨_, rfl, (hopened.setKeyAllowed true).pushShort hrest kind,
    length_pushShort_le hrest kind⟩

theorem Within.flowEnd {kind : Token.Kind} (h : l.Within (depth + 1) allowed kinds (c :: s))
    (hc : c = ']' ∧ kind = .flowSequenceEnd ∨ c = '\x7d' ∧ kind = .flowMappingEnd) :
    ∃ l', l.Leads l' ∧ l'.Within depth false (kinds ++ [kind]) s := by
  refine h.step (by rcases hc with ⟨rfl, -⟩ | ⟨rfl, -⟩ <;> decide) fun l₁ h₁ hrest => ?_
  have hread : l₁.readToken = l₁.readFlowEnd kind := by
    rcases hc with ⟨rfl, rfl⟩ | ⟨rfl, rfl⟩ <;> simp [readToken, hrest, atDocumentMark_of_ne]
  have hdepth := h₁.depth
  obtain ⟨k, ks, hkeys⟩ := List.exists_cons_of_length_eq_add_one hdepth
  have hclosed : Within { l₁ with key := k, outerKeys := ks } depth allowed kinds (c :: s) := by
    refine { h₁ with depth := by simpa [hkeys] using hdepth, free := fun k' hk' p hp => ?_ }
    exact h₁.free k' (List.mem_cons_of_mem _ (hkeys ▸ hk')) p hp
  rw [hread, readFlowEnd, dropKey_of_free h₁.free]
  simp only [hkeys, Option.bind_eq_bind, Option.bind_some]
  refine ⟨_, rfl, (hclosed.setKeyAllowed false).pushShort hrest kind,
    length_pushShort_le hrest kind⟩

theorem Within.flowEntry (h : l.Within (depth + 1) allowed kinds (',' :: s)) :
    ∃ l', l.Leads l' ∧ l'.Within (depth + 1) true (kinds ++ [.flowEntry]) s := by
  refine h.step (by decide) fun l₁ h₁ hrest => ?_
  have hread : l₁.readToken = l₁.readFlowEntry := by
    simp [readToken, hrest, atDocumentMark_of_ne]
  rw [hread, readFlowEntry, dropKey_of_free h₁.free]
  refine ⟨_, rfl, (h₁.withoutKey.setKeyAllowed true).pushShort hrest .flowEntry,
    length_pushShort_le hrest .flowEntry⟩

theorem Within.quotes {text : String} (h : l.Within depth allowed kinds s)
    (hs : Quotes text s rest) :
    ∃ l', l.Leads l' ∧ l'.Within depth false (kinds ++ [.scalar text .doubleQuoted]) rest := by
  obtain ⟨body, hbody, rfl⟩ := hs
  refine h.step (by decide) fun l₁ h₁ hrest => ?_
  refine ⟨_, readToken_doubleQuoted h₁.free (h₁.head?_columns_ne _) hbody hrest,
    (h₁.noted.setKeyAllowed false).push _ _, ?_⟩
  simp only [Lexer.push, List.length_append, List.length_cons]
  omega

/-- The colon behind a key puts the mark of a key before the tokens of the key. -/
theorem Within.value {k : PendingKey}
    (h : l.Within (depth + 1) allowed (kinds ++ kinds') (':' :: s))
    (hrest : l.cursor.rest = ':' :: s) (hk : l.key = some k)
    (hstale : k.isStale l.cursor.mark = false) (hposition : k.position = kinds.length) :
    ∃ l', l.Leads l' ∧ l'.Within (depth + 1) false (kinds ++ .key :: (kinds' ++ [.value])) s := by
  obtain ⟨m, hskip, hm⟩ := h.skip_eq (show isSolid ':' = true by decide)
  obtain ⟨h₁, hrest₁⟩ := h.skip (show isSolid ':' = true by decide)
  have hk₁ : l.skip.fresh.key = some k := by
    simp [hskip, Lexer.fresh, hk, hm hrest, hstale]
  generalize hl₁ : l.skip.fresh = l₁ at hk₁
  have h₁' : l₁.Within (depth + 1) allowed (kinds ++ kinds') (':' :: s) := hl₁ ▸ h₁.fresh
  have hrest₁' : l₁.cursor.rest = ':' :: s := by
    rw [← hl₁]
    exact hrest₁
  have hinserted : Within { l₁.insertAt k.position (.virtual .key k.mark) with key := none }
      (depth + 1) allowed (kinds ++ .key :: kinds') (':' :: s) :=
    { h₁'.withoutKey with kinds := hposition ▸ kinds_insertAt h₁'.kinds _ }
  have hopen : (l₁.insertAt k.position (.virtual .key k.mark)).openBlock k.position
      .blockMappingStart k.mark = l₁.insertAt k.position (.virtual .key k.mark) := by
    have hflow : (l₁.insertAt k.position (.virtual .key k.mark)).inFlow = true := hinserted.inFlow
    simp [openBlock, hflow]
  have hread : l.skip.fresh.readToken = some ((Lexer.setKeyAllowed
      { l₁.insertAt k.position (.virtual .key k.mark) with key := none } false).pushShort
        .value 1) := by
    simp [hl₁, readToken, hrest₁', atDocumentMark_of_ne, h₁'.inFlow, readValue, hk₁, hopen]
  have hpushed := (hinserted.setKeyAllowed false).pushShort hrest₁' .value
  refine ⟨_, h.leads (by decide) hread hpushed.free hpushed.running
    (length_pushShort_le hrest₁' .value), ?_⟩
  simpa using hpushed.fresh

/-- A key is one token until its colon is read. -/
theorem Within.names {key : String} (h : l.Within (depth + 1) true kinds s)
    (hs : Names key s rest) : ∃ l', l.Leads l' ∧
      l'.Within (depth + 1) false (kinds ++ [.key, .scalar key .doubleQuoted, .value]) rest := by
  obtain ⟨body, hbody, hshort, rfl⟩ := hs
  obtain ⟨h₁, hrest⟩ := h.skip (show isSolid '"' = true by decide)
  have hread := readToken_doubleQuoted h₁.fresh.free (h₁.fresh.head?_columns_ne _) hbody hrest
  have h₂ := (h₁.fresh.noted.setKeyAllowed false).push (s := ':' :: ' ' :: rest)
    (.scalar key .doubleQuoted) (l.skip.fresh.cursor.mark.advance ('"' :: (body ++ ['"'])))
  have hleads := h.leads (by decide) hread h₂.free h₂.running
    (by simp only [Lexer.push, List.length_append, List.length_cons]; omega)
  have hstale : PendingKey.isStale ⟨l.skip.fresh.tokens.length, l.skip.fresh.cursor.mark, false⟩
      (l.skip.fresh.cursor.mark.advance ('"' :: (body ++ ['"']))) = false := by
    have hquote : Char.utf8Size '"' = 1 := by decide
    simp [PendingKey.isStale, Mark.advance, byteLength, hquote]
    omega
  have hkey : ((l.skip.fresh.noted.setKeyAllowed false).push (.scalar key .doubleQuoted)
      ⟨l.skip.fresh.cursor.mark.advance ('"' :: (body ++ ['"'])), ':' :: ' ' :: rest⟩).fresh.key =
      some ⟨l.skip.fresh.tokens.length, l.skip.fresh.cursor.mark, false⟩ := by
    have hallowed : l.skip.fresh.keyAllowed = true := h₁.fresh.allowed
    simp only [Lexer.fresh, Lexer.push, Lexer.setKeyAllowed, Lexer.noted] at hallowed hstale ⊢
    simp [hallowed, hstale]
  obtain ⟨l', hleads', h'⟩ := h₂.fresh.value rfl
    (k := ⟨l.skip.fresh.tokens.length, l.skip.fresh.cursor.mark, false⟩)
    hkey hstale
    (by rw [← h₁.fresh.kinds, List.length_map])
  exact ⟨l', hleads.trans hleads', h'.blank⟩

theorem Within.follows {first : Bool} (h : l.Within (depth + 1) allowed kinds (following first s)) :
    ∃ l', l.Leads l' ∧
      l'.Within (depth + 1) (!first || allowed) (kinds ++ separator first) s := by
  cases first with
  | true => exact ⟨l, .refl l, by simpa [separator, following] using h⟩
  | false =>
    obtain ⟨l', hleads, h'⟩ := Within.flowEntry h
    exact ⟨l', hleads, h'.blank⟩

end Lexer

/-! Whole values. The recursion is on the value. -/

open Lexer

mutual

theorem Tree.leads (v : Tree) {l : Lexer} {depth : Nat} {allowed : Bool} {kinds : List Token.Kind}
    {s rest : List Char} (h : l.Within depth allowed kinds s) (hs : Writes v s rest) :
    ∃ l', l.Leads l' ∧ l'.Within depth false (kinds ++ v.kinds) rest := by
  cases v with
  | scalar text => exact h.quotes hs
  | sequence vs =>
    obtain ⟨t, rfl, hs⟩ := hs
    obtain ⟨l₁, hleads₁, h₁⟩ := h.flowStart (.inl ⟨rfl, rfl⟩)
    obtain ⟨l₂, hleads₂, h₂⟩ := items_lead vs h₁ hs
    exact ⟨l₂, hleads₁.trans hleads₂, by simpa [Tree.kinds] using h₂⟩
  | mapping ms =>
    obtain ⟨t, rfl, hs⟩ := hs
    obtain ⟨l₁, hleads₁, h₁⟩ := h.flowStart (.inr ⟨rfl, rfl⟩)
    obtain ⟨l₂, hleads₂, h₂⟩ := members_lead ms h₁ hs
    exact ⟨l₂, hleads₁.trans hleads₂, by simpa [Tree.kinds] using h₂⟩

theorem items_lead (vs : List Tree) {first : Bool} {l : Lexer} {depth : Nat} {allowed : Bool}
    {kinds : List Token.Kind} {s rest : List Char} (h : l.Within (depth + 1) allowed kinds s)
    (hs : WritesItems first vs s rest) :
    ∃ l', l.Leads l' ∧ l'.Within depth false (kinds ++ itemKinds first vs) rest := by
  cases vs with
  | nil =>
    obtain rfl : s = ']' :: rest := hs
    exact h.flowEnd (.inl ⟨rfl, rfl⟩)
  | cons v vs =>
    obtain ⟨t, u, rfl, hv, hvs⟩ := hs
    obtain ⟨l₁, hleads₁, h₁⟩ := h.follows
    obtain ⟨l₂, hleads₂, h₂⟩ := v.leads h₁ hv
    obtain ⟨l₃, hleads₃, h₃⟩ := items_lead vs h₂ hvs
    exact ⟨l₃, hleads₁.trans (hleads₂.trans hleads₃), by simpa [itemKinds] using h₃⟩

/-- A key may come behind the opening brace and behind each comma. -/
theorem members_lead (ms : List (String × Tree)) {first : Bool} {l : Lexer} {depth : Nat}
    {kinds : List Token.Kind} {s rest : List Char} (h : l.Within (depth + 1) first kinds s)
    (hs : WritesMembers first ms s rest) :
    ∃ l', l.Leads l' ∧ l'.Within depth false (kinds ++ memberKinds first ms) rest := by
  cases ms with
  | nil =>
    obtain rfl : s = '\x7d' :: rest := hs
    exact h.flowEnd (.inr ⟨rfl, rfl⟩)
  | cons m ms =>
    obtain ⟨key, v⟩ := m
    obtain ⟨t, u, x, rfl, hkey, hv, hms⟩ := hs
    obtain ⟨l₁, hleads₁, h₁⟩ := h.follows
    rw [Bool.not_or_self] at h₁
    obtain ⟨l₂, hleads₂, h₂⟩ := h₁.names hkey
    obtain ⟨l₃, hleads₃, h₃⟩ := v.leads h₂ hv
    obtain ⟨l₄, hleads₄, h₄⟩ := members_lead ms h₃ hms
    exact ⟨l₄, hleads₁.trans (hleads₂.trans (hleads₃.trans hleads₄)), by
      simpa [memberKinds] using h₄⟩

end

theorem Lexer.within_ofChars (s : List Char) : (Lexer.ofChars s).Within 0 true [] s where
  rest := ⟨[], nofun, rfl⟩
  kinds := rfl
  depth := rfl
  allowed := rfl
  columns := rfl
  free k hk p hp := by
    obtain rfl := List.mem_singleton.1 hk
    cases hp
  running := rfl

theorem Lexer.Within.stop {l : Lexer} {allowed : Bool} {kinds : List Token.Kind}
    (h : l.Within 0 allowed kinds []) : ∃ last, l.step = some last ∧
    last.ended = true ∧ last.tokens.map (·.kind) = kinds ++ [.streamEnd] := by
  obtain ⟨hskip, hrest⟩ := h.skip rfl
  have hread : l.skip.fresh.readToken = l.skip.fresh.readStreamEnd := by
    have hrest' : l.skip.fresh.cursor.rest = [] := hrest
    rw [readToken, hrest']
  have hflow : l.skip.fresh.inFlow = false := by
    have hdepth := hskip.fresh.depth
    simp [Lexer.inFlow, List.length_eq_zero_iff.1 hdepth]
  obtain ⟨last, hlast, hended, hfree, hkinds⟩ := readStreamEnd_of_free hskip.fresh.free hflow
  refine ⟨last.fresh, ?_, hended, hkinds.trans (by simp [hskip.fresh.kinds, hskip.fresh.columns])⟩
  exact step_of_read (dropStale_of_free hskip.free) hskip.fresh.columns_eq_zero
    (hread.trans hlast) (dropStale_of_free hfree)

/-- The tokens of a text that writes a value and nothing else. -/
theorem tokens_of_writes {v : Tree} {s : List Char} (h : Writes v s []) :
    ∃ ts, tokens (String.ofList s) = (ts, true) ∧
      ts.map (·.kind) = v.kinds ++ [.streamEnd] := by
  obtain ⟨l, hleads, hl⟩ := v.leads (Lexer.within_ofChars s) h
  obtain ⟨last, hstep, hended, hkinds⟩ := hl.stop
  exact ⟨last.tokens, tokens_of_leads (v.isKept_of_writes h nofun) hleads hstep hended, hkinds⟩

end Yaml
end InjectionGrammar
