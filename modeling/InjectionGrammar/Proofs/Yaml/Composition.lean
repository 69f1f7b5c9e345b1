import InjectionGrammar.Yaml.Document

/-! What tokens do to the stack of open constructs, and which nodes they add to a document. -/
namespace InjectionGrammar
namespace Yaml
variable {stack stack' stack'' : List Frame} {kinds kinds' : List Token.Kind}
  {nodes nodes' : List Node}

/-- The document with further nodes. -/
def Document.extend (d : Document) (ns : List (Node × Mark)) : Document :=
  { d with nodes := d.nodes ++ ns }

@[simp] theorem Document.extend_nil (d : Document) : d.extend [] = d := by
  cases d
  simp [Document.extend]

@[simp] theorem Document.extend_extend (d : Document) (ns ns' : List (Node × Mark)) :
    (d.extend ns).extend ns' = d.extend (ns ++ ns') := by
  simp [Document.extend]

@[simp] theorem Document.push_eq_extend (d : Document) (node : Node) (m : Mark) :
    d.push node m = d.extend [(node, m)] :=
  rfl

/-- Tokens of these kinds, at whatever places, lead from the one stack to the other and add these
nodes. They name no anchors. -/
def Feeds (stack : List Frame) (kinds : List Token.Kind) (nodes : List Node)
    (stack' : List Frame) : Prop :=
  ∀ ts : List Token, ts.map (·.kind) = kinds → ∃ ns : List (Node × Mark), ns.map (·.1) = nodes ∧
    ∀ (d : Document) rest, d.addEvents [] (eventsFrom stack (ts ++ rest)) =
      (d.extend ns).addEvents [] (eventsFrom stack' rest)

theorem Feeds.nil : Feeds stack [] [] stack := by
  intro ts hts
  obtain rfl := List.map_eq_nil_iff.1 hts
  exact ⟨[], rfl, fun d rest => by simp⟩

theorem Feeds.append (h : Feeds stack kinds nodes stack')
    (h' : Feeds stack' kinds' nodes' stack'') :
    Feeds stack (kinds ++ kinds') (nodes ++ nodes') stack'' := by
  intro ts hts
  obtain ⟨us, vs, rfl, hus, hvs⟩ := List.map_eq_append_iff.1 hts
  obtain ⟨ns, rfl, hns⟩ := h us hus
  obtain ⟨ns', rfl, hns'⟩ := h' vs hvs
  refine ⟨ns ++ ns', by simp, fun d rest => ?_⟩
  rw [List.append_assoc, hns, hns', Document.extend_extend]

/-- The node that an event adds. -/
def Event.Kind.node? : Event.Kind → Option Node
  | scalar text style => some (.scalar text style none)
  | sequenceStart => some (.sequenceStart none)
  | sequenceEnd => some .sequenceEnd
  | mappingStart => some (.mappingStart none)
  | mappingEnd => some .mappingEnd
  | _ => none

theorem Document.addEvents_cons {kind : Event.Kind} {node : Node} (h : kind.node? = some node)
    (d : Document) (m : Mark) (es : List Event) :
    d.addEvents [] (⟨kind, m, {}⟩ :: es) = (d.extend [(node, m)]).addEvents [] es := by
  cases kind <;> cases h <;> simp [addEvents, pushNamed]

/-- A token that adds no node. -/
theorem Feeds.silent {kind : Token.Kind} (h : ∀ t : Token, t.kind = kind →
    feed t stack = ([], some stack')) : Feeds stack [kind] [] stack' := by
  intro ts hts
  obtain ⟨t, rfl, ht⟩ := List.map_eq_singleton_iff.1 hts
  exact ⟨[], rfl, fun d rest => by simp [eventsFrom, h t ht]⟩

/-- A token that adds one node. -/
theorem Feeds.single {kind : Token.Kind} (shown : Event.Kind) {node : Node}
    (hnode : shown.node? = some node) (h : ∀ t : Token, t.kind = kind →
      feed t stack = ([⟨shown, t.start, {}⟩], some stack')) :
    Feeds stack [kind] [node] stack' := by
  intro ts hts
  obtain ⟨t, rfl, ht⟩ := List.map_eq_singleton_iff.1 hts
  exact ⟨[(node, t.start)], rfl, fun d rest => by
    simp [eventsFrom, h t ht, Document.addEvents_cons hnode]⟩

/-- The document of a text whose tokens make up one value. -/
theorem Document.ofText_of_feeds {text : String} {ts : List Token} {isWhole : Bool}
    (htokens : tokens text = (ts, isWhole)) (hkinds : ts.map (·.kind) = kinds ++ [.streamEnd])
    (h : Feeds [.stream true] kinds nodes [.documentEnd [], .stream false]) :
    ∃ ns, ns.map (·.1) = nodes ∧ Document.ofText text = ⟨ns, [], none, true⟩ := by
  obtain ⟨us, vs, rfl, hus, hvs⟩ := List.map_eq_append_iff.1 hkinds
  obtain ⟨t, rfl, ht⟩ := List.map_eq_singleton_iff.1 hvs
  obtain ⟨ns, hnodes, hns⟩ := h us hus
  refine ⟨ns, hnodes, ?_⟩
  rw [Document.ofText, events, htokens, hns]
  simp [eventsFrom, feed, Frame.on, documentEndOn, streamOn, ht, Reaction.leave, Reaction.take,
    addEvents, extend, empty]

end Yaml
end InjectionGrammar
