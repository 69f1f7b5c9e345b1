import InjectionGrammar.Proofs.Yaml.Flow.Nodes

/-! The members of a block mapping as nodes. A list stands at the column of the mapping, and has no
end of its own. -/
namespace InjectionGrammar
namespace Yaml
variable {stack fs : List Frame} {kinds : List Token.Kind} {nodes : List Node} {m : Mark}

theorem feeds_blockStart : Feeds [.stream true] [.blockMappingStart] [.mappingStart none]
    [.blockMapping, .documentEnd [], .stream false] :=
  .single .mappingStart rfl fun t ht => by
    simp [feed, Frame.on, streamOn, nodeStart, nodeOn, ht, Reaction.take, Reaction.above]

theorem feeds_blockEnd : Feeds (.blockMapping :: fs) [.blockEnd] [.mappingEnd] fs :=
  .single .mappingEnd rfl fun t ht => by simp [feed, Frame.on, blockMappingOn, ht, Reaction.take]

theorem admits_blockValueContent : (Frame.blockValueContent m).Admits [.blockMapping] := by
  intro handles t ht
  refine ⟨true, true, ?_⟩
  unfold Frame.on blockValueContentOn
  cases hk : t.kind <;> simp_all [Token.Kind.startsValue]

theorem admits_indentlessEntry : (Frame.indentlessEntry m).Admits [.indentless] := by
  intro handles t ht
  refine ⟨true, false, ?_⟩
  unfold Frame.on indentlessEntryOn
  cases hk : t.kind <;> simp_all [Token.Kind.startsValue]

/-- A key and its colon. Where the colon is makes no difference to a value that is there. -/
theorem Feeds.member (key : String)
    (h : ∀ m, Feeds (.blockValueContent m :: fs) kinds nodes stack) :
    Feeds (.blockMapping :: fs) (.key :: .scalar key .plain :: .value :: kinds)
      (.scalar key .plain none :: nodes) stack := by
  intro ts hts
  obtain ⟨t₁, ts, rfl, h₁, hts⟩ := List.map_eq_cons_iff.1 hts
  obtain ⟨t₂, ts, rfl, h₂, hts⟩ := List.map_eq_cons_iff.1 hts
  obtain ⟨t₃, ts, rfl, h₃, hts⟩ := List.map_eq_cons_iff.1 hts
  obtain ⟨ns, rfl, hns⟩ := h t₃.stop ts hts
  refine ⟨(.scalar key .plain none, t₂.start) :: ns, rfl, fun d rest => ?_⟩
  have hnode : (Event.Kind.scalar key .plain).node? = some (.scalar key .plain none) := rfl
  simp [eventsFrom, feed, Frame.on, blockMappingOn, blockKeyOn, blockValueOn, nodeStart, nodeOn,
    h₁, h₂, h₃, Reaction.take, Reaction.above, Document.addEvents_cons hnode, hns]

/-- The first item of a list that is the value of a member. -/
theorem Feeds.firstItem
    (h : ∀ m, Feeds (.indentlessEntry m :: .blockMapping :: fs) kinds nodes stack) :
    Feeds (.blockValueContent m :: fs) (.blockEntry :: kinds) (.sequenceStart none :: nodes)
      stack := by
  intro ts hts
  obtain ⟨t, ts, rfl, ht, hts⟩ := List.map_eq_cons_iff.1 hts
  obtain ⟨ns, rfl, hns⟩ := h t.stop ts hts
  refine ⟨(.sequenceStart none, t.start) :: ns, rfl, fun d rest => ?_⟩
  have hnode : Event.Kind.sequenceStart.node? = some (.sequenceStart none) := rfl
  simp [eventsFrom, feed, Frame.on, blockValueContentOn, nodeStart, nodeOn, ht, Reaction.take,
    Reaction.above, Document.addEvents_cons hnode, hns]

theorem Feeds.item (h : ∀ m, Feeds (.indentlessEntry m :: fs) kinds nodes stack) :
    Feeds (.indentless :: fs) (.blockEntry :: kinds) nodes stack := by
  intro ts hts
  obtain ⟨t, ts, rfl, ht, hts⟩ := List.map_eq_cons_iff.1 hts
  obtain ⟨ns, rfl, hns⟩ := h t.stop ts hts
  refine ⟨ns, rfl, fun d rest => ?_⟩
  simp [eventsFrom, feed, Frame.on, indentlessOn, ht, Reaction.take, hns]

/-- Anything but another item ends a list. -/
theorem Feeds.endList {kind : Token.Kind} (hkind : kind ≠ .blockEntry)
    (h : Feeds fs (kind :: kinds) nodes stack) :
    Feeds (.indentless :: fs) (kind :: kinds) (.sequenceEnd :: nodes) stack := by
  intro ts hts
  obtain ⟨t, ts, rfl, ht, hts'⟩ := List.map_eq_cons_iff.1 hts
  obtain ⟨ns, rfl, hns⟩ := h (t :: ts) hts
  refine ⟨(.sequenceEnd, t.start) :: ns, rfl, fun d rest => ?_⟩
  have hnode : Event.Kind.sequenceEnd.node? = some .sequenceEnd := rfl
  have hfeed : feed t (.indentless :: fs) =
      (⟨.sequenceEnd, t.start, {}⟩ :: (feed t fs).1, (feed t fs).2) := by
    have hleave : Frame.indentless.on (handlesIn (.indentless :: fs)) t =
        .leave [⟨.sequenceEnd, t.start, {}⟩] := by
      unfold Frame.on indentlessOn
      cases hk : t.kind <;> simp_all
    simp [feed, hleave, Reaction.leave]
  have hrest := hns (d.extend [(.sequenceEnd, t.start)]) rest
  rw [List.cons_append, eventsFrom] at hrest ⊢
  rw [hfeed]
  simp only [List.cons_append, Document.addEvents_cons hnode]
  rw [hrest, Document.extend_extend]
  rfl

end Yaml
end InjectionGrammar
