import InjectionGrammar.Proofs.Yaml.Composition
import InjectionGrammar.Proofs.Yaml.Flow.Tokens

/-! A text in flow style is a document that holds its value. -/
namespace InjectionGrammar
namespace Yaml
variable {f : Frame} {fs frames : List Frame} {first : Bool}

/-- The tokens that a value in flow style begins with. -/
def Token.Kind.startsValue : Token.Kind → Bool
  | scalar _ _ | flowSequenceStart | flowMappingStart => true
  | _ => false

/-- The frame gives way to a value and to the frames that come behind it. -/
def Frame.Admits (f : Frame) (frames : List Frame) : Prop :=
  ∀ (handles : List (String × String)) (t : Token), t.kind.startsValue = true →
    ∃ inBlock hanging, f.on handles t = (nodeStart handles inBlock hanging t).above frames

theorem admits_stream : (Frame.stream true).Admits [.documentEnd [], .stream false] := by
  intro handles t ht
  refine ⟨true, false, ?_⟩
  unfold Frame.on streamOn
  cases hk : t.kind <;> simp_all [Token.Kind.startsValue]

theorem admits_flowItem : Frame.flowItem.Admits [.flowSequence false] := by
  intro handles t ht
  refine ⟨false, false, ?_⟩
  unfold Frame.on flowItemOn
  cases hk : t.kind <;> simp_all [Token.Kind.startsValue]

theorem admits_flowSequence : (Frame.flowSequence true).Admits [.flowSequence false] :=
  admits_flowItem

theorem admits_flowValueContent : Frame.flowValueContent.Admits [.flowMapping false] := by
  intro handles t ht
  refine ⟨false, false, ?_⟩
  unfold Frame.on flowValueContentOn
  cases hk : t.kind <;> simp_all [Token.Kind.startsValue]

theorem admits_flowKey : Frame.flowKey.Admits [.flowValue] := by
  intro handles t ht
  refine ⟨false, false, ?_⟩
  unfold Frame.on flowKeyOn
  cases hk : t.kind <;> simp_all [Token.Kind.startsValue]

theorem Frame.Admits.scalar (h : f.Admits frames) (text : String) (style : Style) :
    Feeds (f :: fs) [.scalar text style] [.scalar text style none] (frames ++ fs) := by
  refine .single (.scalar text style) rfl fun t ht => ?_
  obtain ⟨inBlock, hanging, hon⟩ := h (handlesIn (f :: fs)) t (by rw [ht]; rfl)
  simp [feed, hon, nodeStart, nodeOn, ht, Reaction.take, Reaction.above]

theorem Frame.Admits.sequence (h : f.Admits frames) : Feeds (f :: fs) [.flowSequenceStart]
    [.sequenceStart none] (.flowSequence true :: (frames ++ fs)) := by
  refine .single .sequenceStart rfl fun t ht => ?_
  obtain ⟨inBlock, hanging, hon⟩ := h (handlesIn (f :: fs)) t (by rw [ht]; rfl)
  simp [feed, hon, nodeStart, nodeOn, ht, Reaction.take, Reaction.above]

theorem Frame.Admits.mapping (h : f.Admits frames) : Feeds (f :: fs) [.flowMappingStart]
    [.mappingStart none] (.flowMapping true :: (frames ++ fs)) := by
  refine .single .mappingStart rfl fun t ht => ?_
  obtain ⟨inBlock, hanging, hon⟩ := h (handlesIn (f :: fs)) t (by rw [ht]; rfl)
  simp [feed, hon, nodeStart, nodeOn, ht, Reaction.take, Reaction.above]

theorem feeds_sequenceEnd :
    Feeds (.flowSequence first :: fs) [.flowSequenceEnd] [.sequenceEnd] fs := by
  refine .single .sequenceEnd rfl fun t ht => ?_
  cases first <;> simp [feed, Frame.on, flowSequenceOn, flowItemOn, ht, Reaction.take]

theorem feeds_mappingEnd : Feeds (.flowMapping first :: fs) [.flowMappingEnd] [.mappingEnd] fs := by
  refine .single .mappingEnd rfl fun t ht => ?_
  cases first <;> simp [feed, Frame.on, flowMappingOn, flowMemberOn, ht, Reaction.take]

/-- Behind the comma, if there is one, an item may come. -/
theorem exists_admits_item (first : Bool) (fs : List Frame) :
    ∃ f : Frame, f.Admits [.flowSequence false] ∧
      Feeds (.flowSequence first :: fs) (separator first) [] (f :: fs) := by
  cases first with
  | true => exact ⟨.flowSequence true, admits_flowSequence, .nil⟩
  | false =>
    refine ⟨.flowItem, admits_flowItem, .silent fun t ht => ?_⟩
    simp [feed, Frame.on, flowSequenceOn, ht, Reaction.take]

theorem feeds_key (first : Bool) (fs : List Frame) :
    Feeds (.flowMapping first :: fs) (separator first ++ [.key]) [] (.flowKey :: fs) := by
  cases first with
  | true =>
    refine .silent fun t ht => ?_
    simp [feed, Frame.on, flowMappingOn, flowMemberOn, ht, Reaction.take]
  | false =>
    have hentry : Feeds (.flowMapping false :: fs) [.flowEntry] [] (.flowMember :: fs) :=
      .silent fun t ht => by simp [feed, Frame.on, flowMappingOn, ht, Reaction.take]
    have hkey : Feeds (.flowMember :: fs) [.key] [] (.flowKey :: fs) :=
      .silent fun t ht => by simp [feed, Frame.on, flowMemberOn, ht, Reaction.take]
    exact hentry.append hkey

theorem feeds_value : Feeds (.flowValue :: fs) [.value] [] (.flowValueContent :: fs) :=
  .silent fun t ht => by simp [feed, Frame.on, flowValueOn, ht, Reaction.take]

mutual

theorem Tree.feeds (v : Tree) {f : Frame} {fs frames : List Frame} (h : f.Admits frames) :
    Feeds (f :: fs) v.kinds v.nodes (frames ++ fs) := by
  cases v with
  | scalar text => exact h.scalar text .doubleQuoted
  | sequence vs => exact h.sequence.append (items_feed vs)
  | mapping ms => exact h.mapping.append (members_feed ms)

theorem items_feed (vs : List Tree) {first : Bool} {fs : List Frame} :
    Feeds (.flowSequence first :: fs) (itemKinds first vs) (itemNodes vs) fs := by
  cases vs with
  | nil => exact feeds_sequenceEnd
  | cons v vs =>
    obtain ⟨f, hf, hfeeds⟩ := exists_admits_item first fs
    exact hfeeds.append ((v.feeds hf).append (items_feed vs))

theorem members_feed (ms : List (String × Tree)) {first : Bool} {fs : List Frame} :
    Feeds (.flowMapping first :: fs) (memberKinds first ms) (memberNodes ms) fs := by
  cases ms with
  | nil => exact feeds_mappingEnd
  | cons m ms =>
    obtain ⟨key, v⟩ := m
    have hkey := (feeds_key first fs).append
      ((admits_flowKey.scalar key .doubleQuoted).append feeds_value)
    have hmembers : Feeds (.flowMapping false :: fs) (memberKinds false ms) (memberNodes ms) fs :=
      members_feed ms
    simpa [memberKinds, memberNodes] using
      hkey.append ((v.feeds admits_flowValueContent).append hmembers)

end

/-- The document of a text that writes a value and nothing else. -/
theorem Document.ofText_of_writes {v : Tree} {s : List Char} (h : Writes v s []) :
    ∃ ns, ns.map (·.1) = v.nodes ∧ Document.ofText (String.ofList s) = ⟨ns, [], none, true⟩ := by
  obtain ⟨ts, htokens, hkinds⟩ := tokens_of_writes h
  exact Document.ofText_of_feeds htokens hkinds (v.feeds admits_stream)

end Yaml
end InjectionGrammar
