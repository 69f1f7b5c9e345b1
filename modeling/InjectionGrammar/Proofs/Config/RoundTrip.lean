import InjectionGrammar.Config.Printer
import InjectionGrammar.Proofs.Yaml.Block.Nodes
import InjectionGrammar.Proofs.Yaml.Block.Tokens
import InjectionGrammar.Proofs.Yaml.Reading

/-! A printed configuration is read back as it was. -/
namespace InjectionGrammar
open Yaml
namespace Config
variable {l : Lexer} {columns : List Nat} {kinds : List Token.Kind} {rest : List Char}
  {key : String}

/-! The tokens of a printed configuration. -/

/-- The token of a printed string. -/
def scalarKind (v : String) : Token.Kind :=
  .scalar v (Scalar.styleOf v)

def settingKinds (key value : String) : List Token.Kind :=
  [.key, .scalar key .plain, .value, scalarKind value]

def itemKinds (values : List String) : List Token.Kind :=
  values.flatMap fun v => [.blockEntry, scalarKind v]

def listKinds (key : String) (values : List String) : List Token.Kind :=
  .key :: .scalar key .plain :: .value ::
    if values.isEmpty then [.flowSequenceStart, .flowSequenceEnd] else itemKinds values

/-- The tokens of the last setting and of the end. -/
def outputKinds (c : Config) : List Token.Kind :=
  c.output.elim [] (settingKinds "output") ++ [.blockEnd]

def tokenKinds (c : Config) : List Token.Kind :=
  .blockMappingStart :: (settingKinds "scope_name" c.scopeName ++
    (listKinds "target_scopes" c.targetScopes ++ outputKinds c))

theorem setting_leads {value : String} (h : l.AtLine columns kinds (setting key value ++ rest))
    (hkey : Lexer.isKey key = true) (hcolumns : columns = [] ∨ columns = [0])
    (hrest : rest.head?.all Lexer.isSolid = true) : ∃ l', l.Leads l' ∧
      l'.AtLine [0] (kinds ++ (Lexer.opening columns ++ settingKinds key value)) rest := by
  rw [setting, List.append_assoc] at h
  obtain ⟨l₁, hleads₁, h₁, -⟩ := h.key hkey hcolumns rfl
  obtain ⟨l₂, hleads₂, h₂⟩ := h₁.value hrest
  exact ⟨l₂, hleads₁.trans hleads₂, by simpa [settingKinds, scalarKind] using h₂⟩

theorem items_lead {values : List String}
    (h : l.AtLine [0] kinds ((values.flatMap fun v => '-' :: ' ' :: Scalar.print v) ++ rest))
    (hrest : rest.head?.all Lexer.isSolid = true) : ∃ l', l.Leads l' ∧
      l'.AtLine [0] (kinds ++ itemKinds values) rest := by
  induction values generalizing l kinds with
  | nil => exact ⟨l, .refl l, by simpa [itemKinds] using h⟩
  | cons v values ih =>
    rw [List.flatMap_cons, List.append_assoc, List.cons_append, List.cons_append] at h
    have hnext : ((values.flatMap fun v => '-' :: ' ' :: Scalar.print v) ++ rest).head?.all
        Lexer.isSolid = true := by
      cases values with
      | nil => exact hrest
      | cons => exact show Lexer.isSolid '-' = true by decide
    obtain ⟨l₁, hleads₁, h₁⟩ := h.entry
    obtain ⟨l₂, hleads₂, h₂⟩ := h₁.value hnext
    obtain ⟨l₃, hleads₃, h₃⟩ := ih h₂
    exact ⟨l₃, hleads₁.trans (hleads₂.trans hleads₃), by simpa [itemKinds, scalarKind] using h₃⟩

theorem listSetting_leads {values : List String}
    (h : l.AtLine [0] kinds (listSetting key values ++ rest)) (hkey : Lexer.isKey key = true)
    (hrest : rest.head?.all Lexer.isSolid = true) : ∃ l', l.Leads l' ∧
      l'.AtLine [0] (kinds ++ listKinds key values) rest := by
  cases values with
  | nil =>
    have htext : listSetting key [] ++ rest =
        key.toList ++ ':' :: ' ' :: '[' :: ']' :: '\n' :: rest := by simp [listSetting]
    rw [htext] at h
    obtain ⟨l₁, hleads₁, h₁, hallowed⟩ := h.key hkey (.inr rfl) rfl
    obtain ⟨l₂, hleads₂, h₂⟩ := h₁.emptyList hallowed
    exact ⟨l₂, hleads₁.trans hleads₂, by simpa [listKinds, Lexer.opening] using h₂⟩
  | cons v values =>
    have htext : listSetting key (v :: values) ++ rest = key.toList ++ ':' :: '\n' ::
        (((v :: values).flatMap fun v => '-' :: ' ' :: Scalar.print v) ++ rest) := by
      simp [listSetting]
    rw [htext] at h
    obtain ⟨l₁, hleads₁, h₁, -⟩ := h.key hkey (.inr rfl) rfl
    obtain ⟨l₂, hleads₂, h₂⟩ := items_lead h₁.atLine hrest
    exact ⟨l₂, hleads₁.trans hleads₂, by simpa [listKinds, Lexer.opening] using h₂⟩

/-- The characters of a configuration. -/
def toChars (c : Config) : List Char :=
  setting "scope_name" c.scopeName ++ (listSetting "target_scopes" c.targetScopes ++
    c.output.elim [] (setting "output"))

theorem toText_eq (c : Config) : c.toText = String.ofList c.toChars := by
  rw [toText, toChars, List.append_assoc]
  cases c.output <;> rfl

theorem isKept_of_isKey (hkey : Lexer.isKey key = true) : ∀ c ∈ key.toList, isKept c = true := by
  obtain ⟨_, _, hcs, hplain, -⟩ := Lexer.head_of_isKey hkey
  rw [hcs]
  exact fun c hc => isKept_of_isPrintable (Scalar.isPrintable_of_allowsPlain hplain c hc)

theorem isKept_of_setting {value : String} (hkey : Lexer.isKey key = true) :
    ∀ c ∈ setting key value, isKept c = true := by
  unfold setting
  simp only [List.forall_mem_append, List.forall_mem_cons]
  exact ⟨isKept_of_isKey hkey, by decide, by decide, fun c hc => Scalar.isKept_of_mem_print hc⟩

theorem isKept_of_listSetting {values : List String} (hkey : Lexer.isKey key = true) :
    ∀ c ∈ listSetting key values, isKept c = true := by
  unfold listSetting
  refine List.forall_mem_append.2 ⟨isKept_of_isKey hkey, ?_⟩
  split
  · exact List.all_eq_true.1 (by decide)
  · simp only [List.forall_mem_cons]
    refine ⟨by decide, by decide, fun c hc => ?_⟩
    obtain ⟨v, -, hc⟩ := List.mem_flatMap.1 hc
    simp only [List.mem_cons] at hc
    rcases hc with rfl | rfl | hc
    · decide
    · decide
    · exact Scalar.isKept_of_mem_print hc

theorem isKept_of_toChars (c : Config) : ∀ x ∈ c.toChars, isKept x = true := by
  refine List.forall_mem_append.2 ⟨isKept_of_setting (by decide),
    List.forall_mem_append.2 ⟨isKept_of_listSetting (by decide), ?_⟩⟩
  cases c.output with
  | none => nofun
  | some path => exact isKept_of_setting (by decide)

theorem isSolid_of_isKey (hkey : Lexer.isKey key = true) (s : List Char) :
    (key.toList ++ s).head?.all Lexer.isSolid = true := by
  obtain ⟨c, r, hcr, hplain, -⟩ := Lexer.head_of_isKey hkey
  rw [hcr]
  exact Scalar.isSolid_of_allowsPlain hplain

theorem tokens_toText (c : Config) : ∃ ts, tokens c.toText = (ts, true) ∧
    ts.map (·.kind) = c.tokenKinds ++ [.streamEnd] := by
  have hkey : Lexer.isKey "scope_name" = true ∧ Lexer.isKey "target_scopes" = true ∧
      Lexer.isKey "output" = true := by decide
  have houtput : (c.output.elim [] (setting "output")).head?.all Lexer.isSolid = true := by
    cases c.output with
    | none => rfl
    | some path => exact isSolid_of_isKey hkey.2.2 _
  have hlist : (listSetting "target_scopes" c.targetScopes ++
      c.output.elim [] (setting "output")).head?.all Lexer.isSolid = true := by
    rw [listSetting, List.append_assoc]
    exact isSolid_of_isKey hkey.2.1 _
  obtain ⟨l₁, hleads₁, h₁⟩ :=
    setting_leads (Lexer.atLine_ofChars c.toChars) hkey.1 (.inl rfl) hlist
  obtain ⟨l₂, hleads₂, h₂⟩ := listSetting_leads h₁ hkey.2.1 houtput
  have hlast : ∃ l₃, l₂.Leads l₃ ∧ l₃.AtLine [0] (.blockMappingStart ::
      (settingKinds "scope_name" c.scopeName ++ (listKinds "target_scopes" c.targetScopes ++
        c.output.elim [] (settingKinds "output")))) [] := by
    cases hc : c.output with
    | none =>
      refine ⟨l₂, .refl l₂, ?_⟩
      simpa [hc, Lexer.opening] using h₂
    | some path =>
      rw [hc, Option.elim_some, ← List.append_nil (setting "output" path)] at h₂
      obtain ⟨l₃, hleads₃, h₃⟩ := setting_leads h₂ hkey.2.2 (.inr rfl) rfl
      exact ⟨l₃, hleads₃, by simpa [Lexer.opening] using h₃⟩
  obtain ⟨l₃, hleads₃, h₃⟩ := hlast
  obtain ⟨last, hstep, hended, hkinds⟩ := h₃.stop
  rw [toText_eq]
  refine ⟨last.tokens, tokens_of_leads c.isKept_of_toChars
    (hleads₁.trans (hleads₂.trans hleads₃)) hstep hended, ?_⟩
  simp [hkinds, tokenKinds, outputKinds]

/-! The nodes of a printed configuration. -/

def scalarNode (v : String) : Node :=
  .scalar v (Scalar.styleOf v) none

def settingNodes (key value : String) : List Node :=
  [.scalar key .plain none, scalarNode value]

def sequenceNodes (values : List String) : List Node :=
  .sequenceStart none :: (values.map scalarNode ++ [.sequenceEnd])

/-- The nodes of the last setting and of the end. -/
def outputNodes (c : Config) : List Node :=
  c.output.elim [] (settingNodes "output") ++ [.mappingEnd]

def nodes (c : Config) : List Node :=
  .mappingStart none :: (settingNodes "scope_name" c.scopeName ++
    (.scalar "target_scopes" .plain none :: (sequenceNodes c.targetScopes ++ outputNodes c)))

section
variable {fs stack : List Frame} {kind : Token.Kind} {ns : List Node}

theorem feeds_setting (key value : String) : Feeds (.blockMapping :: fs) (settingKinds key value)
    (settingNodes key value) (.blockMapping :: fs) :=
  .member key fun _ => admits_blockValueContent.scalar value (Scalar.styleOf value)

theorem feeds_items (values : List String) (hkind : kind ≠ .blockEntry)
    (h : Feeds fs (kind :: kinds) ns stack) :
    Feeds (.indentless :: fs) (itemKinds values ++ kind :: kinds)
      (values.map scalarNode ++ .sequenceEnd :: ns) stack := by
  induction values with
  | nil => exact h.endList hkind
  | cons v values ih =>
    exact .item fun _ => (admits_indentlessEntry.scalar v (Scalar.styleOf v)).append ih

theorem feeds_list (key : String) (values : List String) (hkind : kind ≠ .blockEntry)
    (h : Feeds (.blockMapping :: fs) (kind :: kinds) ns stack) :
    Feeds (.blockMapping :: fs) (listKinds key values ++ kind :: kinds)
      (.scalar key .plain none :: (sequenceNodes values ++ ns)) stack := by
  cases values with
  | nil =>
    exact .member key fun _ =>
      admits_blockValueContent.sequence.append (feeds_sequenceEnd.append h)
  | cons v values =>
    have hitems := feeds_items values hkind h
    have hlist := Feeds.member key fun _ => .firstItem fun _ =>
      (admits_indentlessEntry.scalar v (Scalar.styleOf v)).append hitems
    simpa [listKinds, itemKinds, scalarKind, sequenceNodes, scalarNode] using hlist

theorem feeds_output (c : Config) :
    Feeds (.blockMapping :: fs) c.outputKinds c.outputNodes fs := by
  unfold outputKinds outputNodes
  cases c.output with
  | none => exact feeds_blockEnd
  | some path => exact (feeds_setting "output" path).append feeds_blockEnd

end

theorem feeds_tokenKinds (c : Config) :
    Feeds [.stream true] c.tokenKinds c.nodes [.documentEnd [], .stream false] := by
  have houtput : ∃ kind kinds, c.outputKinds = kind :: kinds ∧ kind ≠ .blockEntry := by
    unfold outputKinds
    cases c.output with
    | none => exact ⟨_, _, rfl, nofun⟩
    | some path => exact ⟨_, _, rfl, nofun⟩
  obtain ⟨kind, kinds, hkinds, hkind⟩ := houtput
  have hend : Feeds [.blockMapping, .documentEnd [], .stream false] (kind :: kinds) c.outputNodes
      [.documentEnd [], .stream false] := hkinds ▸ c.feeds_output
  have hlist := feeds_list "target_scopes" c.targetScopes hkind hend
  rw [← hkinds] at hlist
  exact feeds_blockStart.append ((feeds_setting "scope_name" c.scopeName).append hlist)

/-! Reading. -/

theorem reads_sequenceNodes (values : List String) :
    Reads (readList (depthLimit - 1) (readString "a string")) (sequenceNodes values) values := by
  have hitems : List.Forall₂ (fun nodes v => AreValue nodes ∧ Reads (readString "a string") nodes v)
      (values.map fun v => [scalarNode v]) values := by
    rw [List.forall₂_map_left_iff, List.forall₂_same]
    exact fun v _ => ⟨⟨_, _, rfl, nofun, nofun⟩, reads_string "a string" v _ none⟩
  have hflat : (values.map fun v => [scalarNode v]).flatten = values.map scalarNode := by
    rw [← List.flatMap_def, ← List.map_eq_flatMap]
  rw [sequenceNodes, ← hflat]
  exact reads_list (by decide) hitems none

/-- No style makes a printed string look like nothing. -/
theorem reads_path (path : String) :
    Reads (readOptional "path string") [scalarNode path] (some path) := by
  refine reads_present fun hstyle => ?_
  have hprints := Scalar.prints_styleOf path
  rw [hstyle] at hprints
  cases hprints with
  | plain hstring => exact Scalar.present_of_readsAsString hstring

theorem reads_nodes (c : Config) : Reads (layout.read depthLimit) c.nodes c := by
  refine Layout.reads_of_fits (by decide) ?_ none
  have hname := (reads_string "a string" c.scopeName (Scalar.styleOf c.scopeName) none).map
    fun s (k : Config) => { k with scopeName := s }
  have hscopes := (reads_sequenceNodes c.targetScopes).map
    fun ss (k : Config) => { k with targetScopes := ss }
  refine .field rfl (by decide) hname (.field rfl (by decide) hscopes ?_)
  unfold outputNodes
  obtain ⟨name, scopes, output⟩ := c
  cases output with
  | none => exact .finish rfl
  | some path =>
    have houtput := (reads_path path).map fun s (k : Config) => { k with output := s }
    exact .field rfl (by decide) houtput (.finish rfl)

/-- A configuration is read back from its text as it was, with each setting that it has and none
that it has not; but without target scopes it is refused. -/
theorem printed_config_is_read (c : Config) :
    (c.targetScopes ≠ [] → ofText c.toText = .ok c) ∧
    (c.targetScopes = [] → ∃ f, ofText c.toText = .error f ∧
      f.message = "target_scopes must not be empty") := by
  obtain ⟨ts, htokens, hkinds⟩ := c.tokens_toText
  obtain ⟨ns, hns, hdocument⟩ := Document.ofText_of_feeds htokens hkinds c.feeds_tokenKinds
  have hrun := (reads_nodes c).run hns hdocument
  refine ⟨fun hscopes => ?_, fun hscopes => ⟨.noTargetScopes, ?_, rfl⟩⟩
  · simp [ofText, hrun, hscopes, Except.mapError, pure, Except.pure]
  · simp [ofText, hrun, hscopes, Except.mapError]

/-- Strings that each need a style of their own, with an output that is spelled like nothing and
without one; and no target scopes at all. -/
theorem printed_config_is_read_of_words :
    let c (output : Option String) : Config := ⟨"a\n\n", ["x: y", "- \t", "z"], output⟩
    (c (some "null")).toText = "scope_name: |+\n  a\n\ntarget_scopes:\n- 'x: y'\n" ++
      "- \"- \\t\"\n- z\noutput: 'null'\n" ∧
    ofText (c (some "null")).toText = .ok (c (some "null")) ∧
    ofText (c (some "")).toText = .ok (c (some "")) ∧
    ofText (c none).toText = .ok (c none) ∧
    ∃ f, ofText (toText ⟨"a", [], none⟩) = .error f ∧
      f.message = "target_scopes must not be empty" := by
  intro c
  refine ⟨by decide +kernel, ?_, ?_, ?_, ?_⟩
  · exact (printed_config_is_read (c (some "null"))).1 (by decide)
  · exact (printed_config_is_read (c (some ""))).1 (by decide)
  · exact (printed_config_is_read (c none)).1 (by decide)
  · exact (printed_config_is_read ⟨"a", [], none⟩).2 rfl

end Config
end InjectionGrammar
