import InjectionGrammar.Proofs.Yaml.Scalar.Printer
import InjectionGrammar.Proofs.Yaml.Scalar.Tokens

/-! A mapping in block style whose members begin lines, split into its tokens. Values are scalars or
lists of scalars, as they are printed. -/
namespace InjectionGrammar
namespace Yaml
namespace Lexer
variable {l l' : Lexer} {columns : List Nat} {kinds kinds' : List Token.Kind} {c : Char}
  {s t rest : List Char}

/-- A lexer at the beginning of a line, or before the break in front of it, with at most the
outermost block open. -/
structure AtLine (l : Lexer) (columns : List Nat) (kinds : List Token.Kind) (s : List Char) :
    Prop where
  tokens : l.tokens.map (·.kind) = kinds
  columns : l.columns = columns
  outerKeys : l.outerKeys = []
  running : l.ended = false
  place : (l.cursor.rest = s ∧ l.cursor.mark.column = 0 ∧ l.keyAllowed = true ∧ l.key = none) ∨
    (l.cursor.rest = '\n' :: s ∧
      ∀ p ∈ l.key, p.required = false ∧ p.mark.line ≤ l.cursor.mark.line)

/-- A lexer in a line of the outermost block, where a value may follow. -/
structure AtValue (l : Lexer) (kinds : List Token.Kind) (s : List Char) : Prop where
  tokens : l.tokens.map (·.kind) = kinds
  columns : l.columns = [0]
  outerKeys : l.outerKeys = []
  running : l.ended = false
  rest : l.cursor.rest = s
  column : l.cursor.mark.column ≠ 0
  key : l.key = none

theorem atLine_ofChars (s : List Char) : (ofChars s).AtLine [] [] s where
  tokens := rfl
  columns := rfl
  outerKeys := rfl
  running := rfl
  place := .inl ⟨rfl, rfl, rfl, rfl⟩

theorem AtValue.atLine (h : l.AtValue kinds ('\n' :: s)) : l.AtLine [0] kinds s where
  tokens := h.tokens
  columns := h.columns
  outerKeys := h.outerKeys
  running := h.running
  place := .inr ⟨h.rest, by simp [h.key]⟩

theorem skip_solid (hs : s.head?.all isSolid = true) (hrest : l.cursor.rest = s) : l.skip = l := by
  have hblanks := skipBlanks_solid (b := []) hs nofun l.inFlow l.keyAllowed l.cursor.mark
  cases l
  cases hrest
  rw [skip]
  simp only [List.nil_append] at hblanks
  rw [hblanks]
  rfl

/-- What is at the beginning of the line is read with no key pending. -/
theorem AtLine.skip (h : l.AtLine columns kinds s) (hs : s.head?.all isSolid = true) :
    ∃ m : Mark, m.column = 0 ∧
      l.skip.dropStale = some { l with cursor := ⟨m, s⟩, keyAllowed := true, key := none } := by
  have hflow : l.inFlow = false := by simp [inFlow, h.outerKeys]
  rcases h.place with ⟨hrest, hcolumn, hallowed, hkey⟩ | ⟨hrest, hkeys⟩
  · refine ⟨l.cursor.mark, hcolumn, ?_⟩
    rw [skip_solid hs hrest, dropStale_of_none hkey (eq_none_of_nil h.outerKeys)]
    cases l
    cases hrest
    cases hallowed
    cases hkey
    rfl
  · refine ⟨l.cursor.mark.nextLine, rfl, ?_⟩
    have hblanks := skipBlanks_solid (b := []) hs nofun false true l.cursor.mark.nextLine
    have hskip : l.skip = { l with cursor := ⟨l.cursor.mark.nextLine, s⟩, keyAllowed := true } := by
      have hbreak : isBreak '\n' = true := by decide
      rw [List.nil_append] at hblanks
      simp [Lexer.skip, hrest, skipBlanks, hbreak, hflow, hblanks]
    have hfree : l.skip.Free := by
      rw [hskip]
      intro k hk p hp
      rw [h.outerKeys, List.mem_singleton] at hk
      exact (hkeys p (hk ▸ hp)).1
    -- a key in the line before is stale
    have hstale : l.key.filter (fun k => !k.isStale l.cursor.mark.nextLine) = none := by
      rw [Option.filter_eq_none_iff]
      intro p hp
      simp [PendingKey.isStale, Mark.nextLine, Nat.lt_succ_of_le (hkeys p hp).2]
    rw [dropStale_of_free hfree, hskip]
    simp [fresh, hstale, h.outerKeys]

theorem AtLine.length_le (h : l.AtLine columns kinds s) :
    l.cursor.rest.length ≤ s.length + 1 := by
  rcases h.place with ⟨hrest, -⟩ | ⟨hrest, -⟩ <;> simp [hrest]

theorem AtValue.inFlow (h : l.AtValue kinds s) : l.inFlow = false := by
  simp [Lexer.inFlow, h.outerKeys]

theorem AtValue.free (h : l.AtValue kinds s) : l.Free :=
  free_of_none h.key h.outerKeys

theorem AtValue.head?_columns_ne (h : l.AtValue kinds s) :
    l.columns.head? ≠ some l.cursor.mark.column := by
  rw [h.columns, List.head?_cons, ne_eq, Option.some.injEq]
  exact fun hcolumn => h.column hcolumn.symm

theorem AtValue.columns_eq_zero (h : l.AtValue kinds s) : ∀ k ∈ l.columns, k = 0 := by
  simp [h.columns]

/-- The blank before a value is passed over. -/
theorem AtValue.skip (h : l.AtValue kinds (' ' :: s)) (hs : s.head?.all isSolid = true) :
    ∃ l₁, l.skip.dropStale = some l₁ ∧ l₁.AtValue kinds s ∧ l₁.keyAllowed = l.keyAllowed := by
  have hblanks := skipBlanks_solid (b := [' ']) hs (by simp) l.inFlow l.keyAllowed l.cursor.mark
  have hskip : l.skip = { l with cursor := ⟨l.cursor.mark.advance [' '], s⟩ } := by
    rw [Lexer.skip, h.rest]
    simp only [List.singleton_append] at hblanks
    rw [hblanks]
  rw [hskip]
  exact ⟨_, dropStale_of_none h.key (eq_none_of_nil h.outerKeys),
    { h with rest := rfl, column := Nat.succ_ne_zero _ }, rfl⟩

/-- Behind a value comes the end of its line, or the next line. -/
theorem AtValue.push_atLine (h : l.AtValue kinds s) {key : Option PendingKey} {allowed : Bool}
    (kind : Token.Kind) (stop : Cursor)
    (hkey : ∀ p ∈ key, p.required = false ∧ p.mark.line = l.cursor.mark.line)
    (hplace : (stop.rest = rest ∧ stop.mark.column = 0 ∧ allowed = true ∧
        (∀ p ∈ key, l.cursor.mark.line < stop.mark.line)) ∨
      (stop.rest = '\n' :: rest ∧ l.cursor.mark.line ≤ stop.mark.line)) :
    ∃ l', (push { l with key, keyAllowed := allowed } kind stop).dropStale = some l' ∧
      l'.AtLine [0] (kinds ++ [kind]) rest := by
  have hfree : (push { l with key, keyAllowed := allowed } kind stop).Free := by
    intro k hk p hp
    have houter : k = key := by simpa [push, h.outerKeys] using hk
    exact (hkey p (houter ▸ hp)).1
  refine ⟨_, dropStale_of_free hfree, ?_⟩
  refine ⟨by simp [fresh, push, h.tokens], h.columns, by simp [fresh, push, h.outerKeys], h.running,
    ?_⟩
  rcases hplace with ⟨hrest, hcolumn, hallowed, hline⟩ | ⟨hrest, hline⟩
  · refine .inl ⟨hrest, hcolumn, hallowed, ?_⟩
    simp only [fresh, push]
    rw [Option.filter_eq_none_iff]
    intro p hp
    simp [PendingKey.isStale, (hkey p hp).2, hline p hp]
  · refine .inr ⟨hrest, fun p hp => ?_⟩
    obtain ⟨hrequired, hmark⟩ := hkey p (Option.filter_eq_some_iff.1 hp).1
    exact ⟨hrequired, hmark.trans_le hline⟩

theorem noted_key (hkey : l.key = none) :
    ∀ p ∈ l.noted.key, p.required = false ∧ p.mark.line = l.cursor.mark.line := by
  intro p hp
  unfold Lexer.noted at hp
  dsimp only at hp
  split at hp
  · cases hp
    exact ⟨rfl, rfl⟩
  · rw [hkey] at hp
    cases hp

theorem startsLine_of_isSolid (h : s.head?.all isSolid = true) : StartsLine s := by
  intro c hc
  rw [Option.mem_def.1 hc, Option.all_some] at h
  simp only [isSolid, Bool.and_eq_true, Bool.not_eq_true'] at h
  exact ⟨h.1.1.1, h.1.1.2⟩

theorem AtValue.plain {v : String} (h : l.AtValue kinds (v.toList ++ '\n' :: rest))
    (hstring : Scalar.readsAsString v = true) (hv : Scalar.allowsPlain v.toList = true)
    (hrest : StartsLine rest) : ∃ l₂ l₃, l.readToken = some l₂ ∧ l₂.dropStale = some l₃ ∧
      l₃.AtLine [0] (kinds ++ [.scalar v .plain]) rest := by
  obtain ⟨c, s, hcs⟩ := List.exists_cons_of_ne_nil (Scalar.ne_nil_of_readsAsString hstring)
  rw [hcs] at hv
  have hread : l.readToken = l.readPlainToken :=
    readToken_eq_plain hv h.inFlow (.inl h.column) (by rw [h.rest, hcs, List.cons_append])
  have htext : readPlain false 1 .none l.cursor.mark (c :: (s ++ '\n' :: rest)) =
      some ⟨c :: s, true, ⟨(l.cursor.mark.advance (c :: s)).nextLine, rest⟩⟩ := by
    rw [readPlain_text (isPlainText_of_allowsPlain hv) (Nat.le_refl 1) rfl
      (fun hne => absurd rfl hne), readPlain_lineEnd Nat.one_pos hrest]
    simp [Plain.cons, Gap.text]
  have hplain : l.readPlainToken = some ((l.noted.setKeyAllowed true).push (.scalar v .plain)
      ⟨(l.cursor.mark.advance (c :: s)).nextLine, rest⟩) := by
    have hv' : String.ofList (c :: s) = v := by rw [← hcs, String.ofList_toList]
    rw [readPlainToken, saveKey_of_free h.free h.head?_columns_ne]
    simp [Lexer.noted, Lexer.inFlow, h.outerKeys, h.columns, h.rest, hcs, htext, hv']
  obtain ⟨l₃, hfresh, hline⟩ := h.push_atLine (.scalar v .plain)
    ⟨(l.cursor.mark.advance (c :: s)).nextLine, rest⟩ (noted_key h.key)
    (.inl ⟨rfl, rfl, rfl, fun _ _ => Nat.lt_succ_self _⟩)
  exact ⟨_, l₃, hread.trans hplain, hfresh, hline⟩

theorem AtValue.scalar {v : String} (h : l.AtValue kinds (Scalar.print v ++ rest))
    (hrest : StartsLine rest) : ∃ l₂ l₃, l.readToken = some l₂ ∧ l₂.dropStale = some l₃ ∧
      l₃.AtLine [0] (kinds ++ [.scalar v (Scalar.styleOf v)]) rest := by
  have hprints := Scalar.prints_styleOf v
  generalize Scalar.styleOf v = style at hprints
  cases hprints with
  | plain hstring hv hprint =>
    have htext : Scalar.print v ++ rest = v.toList ++ '\n' :: rest := by simp [hprint]
    exact AtValue.plain (htext ▸ h) hstring hv hrest
  | singleQuoted hv hprint =>
    have htext : l.cursor.rest =
        '\'' :: (Scalar.singleQuotedChars false v.toList ++ '\'' :: '\n' :: rest) := by
      simp [h.rest, hprint]
    obtain ⟨m, hline, hread⟩ :=
      readToken_singleQuoted h.free h.head?_columns_ne hv (by simp) htext
    obtain ⟨l₃, hfresh, hnext⟩ := h.push_atLine (.scalar v .singleQuoted) ⟨m, '\n' :: rest⟩
      (noted_key h.key) (.inr ⟨rfl, hline⟩)
    exact ⟨_, l₃, hread, hfresh, hnext⟩
  | doubleQuoted hprint =>
    have htext : l.cursor.rest =
        '"' :: (v.toList.flatMap Scalar.escapeChar ++ '"' :: '\n' :: rest) := by
      simp [h.rest, hprint]
    have hread := readToken_doubleQuoted h.free h.head?_columns_ne
      (isBody_flatMap spells_escapeChar v.toList) htext
    obtain ⟨l₃, hfresh, hnext⟩ := h.push_atLine (.scalar v .doubleQuoted)
      ⟨l.cursor.mark.advance ('"' :: (v.toList.flatMap Scalar.escapeChar ++ ['"'])), '\n' :: rest⟩
      (noted_key h.key) (.inr ⟨rfl, Nat.le_refl _⟩)
    exact ⟨_, l₃, hread, hfresh, hnext⟩
  | literal hv hne hprint =>
    obtain ⟨m, hm, hread⟩ := readToken_literal h.key h.inFlow h.columns hv hne hrest
      (h.rest.trans (hprint rest))
    have hkey : ∀ p ∈ l.key, p.required = false ∧ p.mark.line = l.cursor.mark.line := by
      simp [h.key]
    obtain ⟨l₃, hfresh, hnext⟩ := h.push_atLine (.scalar v .literal) ⟨m, rest⟩ hkey
      (.inl ⟨rfl, hm, rfl, by simp [h.key]⟩)
    exact ⟨_, l₃, hread, hfresh, hnext⟩

/-- A printed string is one scalar, up to the end of its line. -/
theorem AtValue.value {v : String} (h : l.AtValue kinds (' ' :: (Scalar.print v ++ rest)))
    (hrest : rest.head?.all isSolid = true) : ∃ l', l.Leads l' ∧
      l'.AtLine [0] (kinds ++ [.scalar v (Scalar.styleOf v)]) rest := by
  obtain ⟨l₁, hskip, h₁, -⟩ := h.skip (Scalar.isSolid_head_print v rest)
  obtain ⟨l₂, l₃, hread, hfresh, h₃⟩ := h₁.scalar (startsLine_of_isSolid hrest)
  have hstep := step_of_read hskip h₁.columns_eq_zero hread hfresh
  refine ⟨l₃, .single hstep h₃.running ?_, h₃⟩
  have hne : Scalar.print v ≠ [] := Scalar.print_ne_nil v
  have hpos := List.length_pos_of_ne_nil hne
  calc l₃.cursor.rest.length ≤ rest.length + 1 := h₃.length_le
    _ < l.cursor.rest.length := by
      rw [h.rest, List.length_cons, List.length_append]
      omega

/-! Keys. -/

/-- A name that is written as it is. -/
def isKey (key : String) : Bool :=
  Scalar.allowsPlain key.toList && byteLength key.toList ≤ 1000 && key.toList.head?.any Char.isAlpha

theorem head_of_isKey {key : String} (h : isKey key = true) : ∃ c s, key.toList = c :: s ∧
    Scalar.allowsPlain (c :: s) = true ∧ byteLength (c :: s) ≤ 1000 ∧ c ≠ '-' ∧ c ≠ '.' := by
  simp only [isKey, Bool.and_eq_true, decide_eq_true_eq] at h
  obtain ⟨⟨hplain, hshort⟩, halpha⟩ := h
  cases hcs : key.toList with
  | nil => simp [hcs] at halpha
  | cons c s =>
    rw [hcs] at hplain hshort halpha
    refine ⟨c, s, rfl, hplain, hshort, ?_, ?_⟩
    · rintro rfl
      exact absurd (show Char.isAlpha '-' = true from halpha) (by decide)
    · rintro rfl
      exact absurd (show Char.isAlpha '.' = true from halpha) (by decide)

/-- The mapping begins with its first key. -/
def opening (columns : List Nat) : List Token.Kind :=
  if columns.isEmpty then [.blockMappingStart] else []

/-- A lexer behind a token at the beginning of a line, where a colon makes that token a key. -/
structure AtColon (l : Lexer) (columns : List Nat) (kinds : List Token.Kind) (kind : Token.Kind)
    (s : List Char) : Prop where
  tokens : l.tokens.map (·.kind) = kinds ++ [kind]
  columns : l.columns = columns
  outerKeys : l.outerKeys = []
  running : l.ended = false
  rest : l.cursor.rest = ':' :: s
  key : ∃ k, l.key = some k ∧ k.isStale l.cursor.mark = false ∧ k.mark.column = 0 ∧
    k.position = kinds.length

theorem columns_eq_zero (h : columns = [] ∨ columns = [0]) : ∀ k ∈ columns, k = 0 := by
  rcases h with rfl | rfl <;> simp

/-- A name at the beginning of a line is one token until its colon is read. -/
theorem AtLine.name {key : String} (h : l.AtLine columns kinds (key.toList ++ ':' :: s))
    (hkey : isKey key = true) (hcolumns : columns = [] ∨ columns = [0]) (hs : atBlank s = true) :
    ∃ l', l.step = some l' ∧ l'.AtColon columns kinds (.scalar key .plain) s := by
  obtain ⟨c, r, hcr, hplain, hshort, hdash, hdot⟩ := head_of_isKey hkey
  rw [hcr] at h
  obtain ⟨m, hm, hskip⟩ := h.skip (Scalar.isSolid_of_allowsPlain hplain)
  generalize hl₁ : { l with cursor := ⟨m, c :: r ++ ':' :: s⟩, keyAllowed := true, key := none } =
    l₁ at hskip
  have hflow : l₁.inFlow = false := by simp [← hl₁, inFlow, h.outerKeys]
  have hread : l₁.readToken = l₁.readPlainToken :=
    readToken_eq_plain hplain hflow (.inr ⟨hdash, hdot⟩) (by rw [← hl₁]; rfl)
  have hsave : ∃ required, l₁.saveKey =
      some { l₁ with key := some ⟨l.tokens.length, m, required⟩ } := by
    refine ⟨l.columns.head? == some m.column, ?_⟩
    subst hl₁
    simp [saveKey, dropKey, inFlow, h.outerKeys]
  obtain ⟨required, hsave⟩ := hsave
  have htext : readPlain false ((columns.head?.map (· + 1)).getD 0) .none m (c :: (r ++ ':' :: s)) =
      some ⟨c :: r, false, ⟨m.advance (c :: r), ':' :: s⟩⟩ := by
    have hindent : (columns.head?.map (· + 1)).getD 0 ≤ 1 := by
      rcases hcolumns with rfl | rfl <;> simp
    rw [readPlain_text (isPlainText_of_allowsPlain hplain) hindent rfl
      (fun hne => absurd rfl hne), readPlain_colon hs]
    simp [Plain.cons, Gap.text]
  have hkind : String.ofList (c :: r) = key := by rw [← hcr, String.ofList_toList]
  have hname : l₁.readPlainToken = some ((Lexer.setKeyAllowed
      { l₁ with key := some ⟨l.tokens.length, m, required⟩ } false).push (.scalar key .plain)
        ⟨m.advance (c :: r), ':' :: s⟩) := by
    rw [readPlainToken, hsave]
    subst hl₁
    simp [inFlow, h.outerKeys, h.columns, htext, hkind]
  have hstale : PendingKey.isStale ⟨l.tokens.length, m, required⟩ (m.advance (c :: r)) = false := by
    simp [PendingKey.isStale, Mark.advance]
    omega
  subst hl₁
  refine ⟨_, step_of_read hskip (h.columns ▸ columns_eq_zero hcolumns) (hread.trans hname)
    (dropStale_of_current rfl hstale h.outerKeys), ?_⟩
  exact {
    tokens := by simp [push, setKeyAllowed, h.tokens]
    columns := h.columns
    outerKeys := h.outerKeys
    running := h.running
    rest := rfl
    key := ⟨_, rfl, hstale, hm, by rw [← h.tokens, List.length_map]⟩ }

/-- The mark of a key comes before the key, and that of the mapping before the first one. -/
theorem exists_insertKey (k : PendingKey) (hkinds : l.tokens.map (·.kind) = kinds ++ kinds')
    (hcolumns : l.columns = [] ∨ l.columns = [0]) (houter : l.outerKeys = [])
    (hcolumn : k.mark.column = 0) (hposition : k.position = kinds.length) :
    ∃ ts : List Token, ts.map (·.kind) = kinds ++ (opening l.columns ++ .key :: kinds') ∧
      (l.insertAt k.position (.virtual .key k.mark)).openBlock k.position .blockMappingStart
        k.mark =
        { l with tokens := ts, columns := [0] } := by
  have hkey := kinds_insertAt hkinds (.virtual .key k.mark)
  have hflow : (l.insertAt kinds.length (.virtual .key k.mark)).inFlow = false := by
    simp [inFlow, insertAt, houter]
  rw [hposition]
  rcases hcolumns with hcolumns | hcolumns
  · have hstart := kinds_insertAt hkey (.virtual .blockMappingStart k.mark)
    refine ⟨_, by simpa [hcolumns, opening, Token.virtual] using hstart, ?_⟩
    have hright : (l.insertAt kinds.length (.virtual .key k.mark)).columns.head?.all
        (· < k.mark.column) = true := by simp [insertAt, hcolumns]
    rw [openBlock, if_pos (by simp [hflow, hright]), hcolumn]
    simp [insertAt, hcolumns, Token.virtual]
  · refine ⟨_, by simpa [hcolumns, opening, Token.virtual] using hkey, ?_⟩
    have hright : (l.insertAt kinds.length (.virtual .key k.mark)).columns.head?.all
        (· < k.mark.column) = false := by simp [insertAt, hcolumns, hcolumn]
    rw [openBlock, if_neg (by simp [hright])]
    simp [insertAt, hcolumns, Token.virtual]

theorem AtColon.colon {kind : Token.Kind} (h : l.AtColon columns kinds kind s)
    (hcolumns : columns = [] ∨ columns = [0]) (hs : atBlank s = true) : ∃ l', l.step = some l' ∧
      l'.AtValue (kinds ++ (opening columns ++ [.key, kind, .value])) s ∧
      l'.keyAllowed = false := by
  obtain ⟨k, hkey, hstale, hcolumn, hposition⟩ := h.key
  rw [← h.columns] at hcolumns ⊢
  obtain ⟨ts, hts, hinsert⟩ :=
    exists_insertKey k h.tokens hcolumns h.outerKeys hcolumn hposition
  have hcolon : (':' :: s).head?.all isSolid = true := show isSolid ':' = true by decide
  have hskip : l.skip.dropStale = some l := by
    rw [skip_solid hcolon h.rest, dropStale_of_current hkey hstale h.outerKeys]
  have hread : l.readToken = l.readValue := by
    simp [readToken, h.rest, atDocumentMark_of_ne, hs]
  have hvalue : l.readValue = some ((Lexer.setKeyAllowed
      { l with tokens := ts, columns := [0], key := none } false).pushShort .value 1) := by
    rw [readValue, hkey]
    simp only [hinsert]
  refine ⟨_, step_of_read hskip (columns_eq_zero hcolumns) (hread.trans hvalue)
    (dropStale_of_none rfl (eq_none_of_nil h.outerKeys)), ?_⟩
  exact ⟨{
    tokens := by simp [pushShort, push, setKeyAllowed, hts]
    columns := rfl
    outerKeys := h.outerKeys
    running := h.running
    rest := by simp [pushShort, push, setKeyAllowed, Cursor.drop, h.rest]
    column := by simp [pushShort, push, setKeyAllowed, Cursor.drop, h.rest, Mark.advance]
    key := rfl }, rfl⟩

theorem AtLine.length_ge (h : l.AtLine columns kinds s) : s.length ≤ l.cursor.rest.length := by
  rcases h.place with ⟨hrest, -⟩ | ⟨hrest, -⟩ <;> simp [hrest]

theorem AtLine.key {key : String} (h : l.AtLine columns kinds (key.toList ++ ':' :: s))
    (hkey : isKey key = true) (hcolumns : columns = [] ∨ columns = [0]) (hs : atBlank s = true) :
    ∃ l', l.Leads l' ∧
      l'.AtValue (kinds ++ (opening columns ++ [.key, .scalar key .plain, .value])) s ∧
      l'.keyAllowed = false := by
  obtain ⟨l₁, hstep₁, h₁⟩ := h.name hkey hcolumns hs
  obtain ⟨l₂, hstep₂, h₂, hallowed⟩ := h₁.colon hcolumns hs
  refine ⟨l₂, .step hstep₁ h₁.running ?_ (.single hstep₂ h₂.running ?_), h₂, hallowed⟩
  · obtain ⟨c, r, hcr, -⟩ := head_of_isKey hkey
    have hlength := h.length_ge
    rw [hcr, List.length_append, List.length_cons] at hlength
    rw [h₁.rest]
    omega
  · rw [h₁.rest, h₂.rest]
    exact Nat.lt_succ_self _

/-! Lists. -/

/-- A dash at the column of the mapping opens no block. -/
theorem AtLine.entry (h : l.AtLine [0] kinds ('-' :: ' ' :: s)) : ∃ l', l.Leads l' ∧
    l'.AtValue (kinds ++ [.blockEntry]) (' ' :: s) := by
  obtain ⟨m, hm, hskip⟩ := h.skip (show isSolid '-' = true by decide)
  generalize hl₁ :
    { l with cursor := ⟨m, '-' :: ' ' :: s⟩, keyAllowed := true, key := none } = l₁ at hskip
  have hmark : atDocumentMark ('-' :: ' ' :: s) = false := by
    cases s <;> simp [atDocumentMark]
  have hread : l₁.readToken = l₁.readBlockEntry := by
    have hblank : atBlank (' ' :: s) = true := rfl
    simp [readToken, ← hl₁, hmark, hblank]
  have hentry : l₁.readBlockEntry = some ((l₁.setKeyAllowed true).pushShort .blockEntry 1) := by
    have hopen : l₁.openHere .blockSequenceStart = some l₁ := by
      simp [openHere, ← hl₁, openBlock, inFlow, h.outerKeys, h.columns, hm]
    have hkey : l₁.key = none := by rw [← hl₁]
    rw [readBlockEntry, hopen]
    simp [dropKey_of_none hkey]
  subst hl₁
  have hstep := step_of_read hskip (by simp [h.columns]) (hread.trans hentry)
    (dropStale_of_none rfl (eq_none_of_nil h.outerKeys))
  have hvalue : (Lexer.pushShort (Lexer.setKeyAllowed
      { l with cursor := ⟨m, '-' :: ' ' :: s⟩, keyAllowed := true, key := none } true)
        .blockEntry 1).AtValue (kinds ++ [.blockEntry]) (' ' :: s) := {
    tokens := by simp [pushShort, push, setKeyAllowed, h.tokens]
    columns := h.columns
    outerKeys := h.outerKeys
    running := h.running
    rest := rfl
    column := Nat.succ_ne_zero _
    key := rfl }
  refine ⟨_, .single hstep hvalue.running ?_, hvalue⟩
  calc _ = (' ' :: s).length := congrArg List.length hvalue.rest
    _ < l.cursor.rest.length := Nat.lt_of_succ_le h.length_ge

/-- Between brackets stands a list without items. -/
theorem AtValue.emptyList (h : l.AtValue kinds (' ' :: '[' :: ']' :: '\n' :: rest))
    (hallowed : l.keyAllowed = false) : ∃ l', l.Leads l' ∧
    l'.AtLine [0] (kinds ++ [.flowSequenceStart, .flowSequenceEnd]) rest := by
  obtain ⟨l₁, hskip₁, h₁, hallowed₁⟩ := h.skip (show isSolid '[' = true by decide)
  have hread₁ : l₁.readToken = some ((Lexer.setKeyAllowed
      { l₁ with outerKeys := [none], key := none } true).pushShort .flowSequenceStart 1) := by
    have hsave : l₁.saveKey = some l₁ := by simp [saveKey, hallowed₁, hallowed]
    simp [readToken, h₁.rest, atDocumentMark_of_ne, readFlowStart, hsave, h₁.key, h₁.outerKeys]
  generalize hl₂ : (Lexer.setKeyAllowed { l₁ with outerKeys := [none], key := none } true).pushShort
    .flowSequenceStart 1 = l₂ at hread₁
  have hkeys₂ : l₂.key = none ∧ l₂.outerKeys = [none] := hl₂ ▸ ⟨rfl, rfl⟩
  have hrest₂ : l₂.cursor.rest = ']' :: '\n' :: rest := by
    simp [← hl₂, pushShort, push, setKeyAllowed, Cursor.drop, h₁.rest]
  have hcolumns₂ : ∀ k ∈ l₂.columns, k = 0 := hl₂ ▸ h₁.columns_eq_zero
  have hfresh₂ : l₂.dropStale = some l₂ := dropStale_of_none hkeys₂.1 (by simp [hkeys₂.2])
  have hstep₁ := step_of_read hskip₁ h₁.columns_eq_zero hread₁ hfresh₂
  have hskip₂ : l₂.skip.dropStale = some l₂ := by
    have hclose : (']' :: '\n' :: rest).head?.all isSolid = true :=
      show isSolid ']' = true by decide
    rw [skip_solid hclose hrest₂, hfresh₂]
  have hread₂ : l₂.readToken = some ((Lexer.setKeyAllowed
      { l₂ with key := none, outerKeys := [] } false).pushShort .flowSequenceEnd 1) := by
    simp [readToken, hrest₂, atDocumentMark_of_ne, readFlowEnd, dropKey_of_none hkeys₂.1, hkeys₂.2]
  have hstep₂ := step_of_read hskip₂ hcolumns₂ hread₂
    (dropStale_of_none rfl (eq_none_of_nil rfl))
  have hline : ((Lexer.setKeyAllowed { l₂ with key := none, outerKeys := [] } false).pushShort
      .flowSequenceEnd 1).AtLine [0] (kinds ++ [.flowSequenceStart, .flowSequenceEnd]) rest := {
    tokens := by simp [← hl₂, pushShort, push, setKeyAllowed, h₁.tokens]
    columns := hl₂ ▸ h₁.columns
    outerKeys := rfl
    running := hl₂ ▸ h₁.running
    place := .inr ⟨by simp [pushShort, push, setKeyAllowed, Cursor.drop, hrest₂],
      by simp [pushShort, push, setKeyAllowed]⟩ }
  refine ⟨_, .step hstep₁ (hl₂ ▸ h₁.running) ?_ (.single hstep₂ hline.running ?_), hline⟩
  · rw [hrest₂, h.rest]
    simp
  · simp [pushShort, push, setKeyAllowed, Cursor.drop, hrest₂]

/-- The end of the text ends the mapping. -/
theorem AtLine.stop (h : l.AtLine [0] kinds []) : ∃ last, l.step = some last ∧
    last.ended = true ∧ last.tokens.map (·.kind) = kinds ++ [.blockEnd, .streamEnd] := by
  obtain ⟨m, hm, hskip⟩ := h.skip rfl
  generalize hl₁ : { l with cursor := ⟨m, []⟩, keyAllowed := true, key := none } = l₁ at hskip
  have hread : l₁.readToken = l₁.readStreamEnd := by rw [readToken, ← hl₁]
  have hflow : l₁.inFlow = false := by simp [← hl₁, inFlow, h.outerKeys]
  have hfree : l₁.Free := free_of_none (hl₁ ▸ rfl) (hl₁ ▸ h.outerKeys)
  obtain ⟨last, hlast, hended, hlastFree, hkinds⟩ := readStreamEnd_of_free hfree hflow
  refine ⟨last.fresh, step_of_read hskip (by simp [← hl₁, h.columns]) (hread.trans hlast)
    (dropStale_of_free hlastFree), hended, hkinds.trans ?_⟩
  simp [← hl₁, h.tokens, h.columns]

end Lexer
end Yaml
end InjectionGrammar
