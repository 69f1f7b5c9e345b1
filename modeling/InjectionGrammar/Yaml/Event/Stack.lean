import InjectionGrammar.Yaml.Event
import InjectionGrammar.Yaml.Token.Lexer

/-!
Events from tokens. A stack holds what the tokens to come have to complete, the innermost first.
Each token is offered to the top of the stack, which takes it or leaves it to what lies below.
-/
namespace InjectionGrammar
namespace Yaml

/-- A construct that is open. A mark is the place of a scalar that the text may leave out. -/
inductive Frame where
  /-- Between documents; the first one needs no mark of its beginning. -/
  | stream (isFirst : Bool)
  | directives (version : Bool) (handles : List (String × String))
  /-- Behind the mark of the beginning of a document. -/
  | content
  | documentEnd (handles : List (String × String))
  /-- Behind the properties of a node. Behind a key a sequence may begin at the column of its
  parent. -/
  | node (inBlock hanging : Bool) (start : Mark) (properties : Properties)
  | blockSequence
  | blockEntry (m : Mark)
  /-- A block sequence at the column of its parent, which has no end of its own. -/
  | indentless
  | indentlessEntry (m : Mark)
  | blockMapping
  | blockKey (m : Mark)
  | blockValue
  | blockValueContent (m : Mark)
  | flowSequence (isFirst : Bool)
  /-- Behind a comma. -/
  | flowItem
  /-- Mappings of one pair, without braces of their own. -/
  | pairKey
  | pairValue
  | pairValueContent
  | pairEnd
  | flowMapping (isFirst : Bool)
  | flowMember
  | flowKey
  | flowValue
  | flowValueContent
  /-- Behind a key that is not followed by a value. -/
  | loneKey
  deriving DecidableEq, Repr

/-- What becomes of a frame that is offered a token. -/
inductive Outcome where
  /-- Takes the token and makes place for other frames. -/
  | take (frames : List Frame)
  /-- Is complete, and leaves the token to the frame below. -/
  | leave
  | refuse

/-- The events that a token brings about at a frame, and what becomes of the frame. -/
structure Reaction where
  events : List Event
  outcome : Outcome

namespace Reaction

def take (events : List Event) (frames : List Frame) : Reaction := ⟨events, .take frames⟩

def leave (events : List Event) : Reaction := ⟨events, .leave⟩

def refuse : Reaction := ⟨[], .refuse⟩

/-- Other events come first. -/
def after (events : List Event) (r : Reaction) : Reaction := { r with events := events ++ r.events }

/-- The frames below those that are to come. -/
def above (r : Reaction) (frames : List Frame) : Reaction :=
  match r.outcome with
  | .take fs => { r with outcome := .take (fs ++ frames) }
  | .leave => { r with outcome := .leave }
  | .refuse => r

end Reaction

/-- The handles that need no directive. -/
def defaultHandles : List (String × String) :=
  [("!", "!"), ("!!", "tag:yaml.org,2002:")]

/-- The tag of a handle and a suffix. -/
def resolveTag? (handles : List (String × String)) (handle suffix : String) : Option String :=
  if handle.isEmpty then some suffix
  else ((handles ++ defaultHandles).find? (·.1 == handle)).map fun d => d.2 ++ suffix

variable (handles : List (String × String))

/-- A node, from its first token that the frame above has not seen. -/
def nodeOn (inBlock hanging : Bool) (start : Mark) (p : Properties) (t : Token) : Reaction :=
  let otherwise : Reaction :=
    if p.isEmpty then .refuse else .leave [⟨.scalar "" .plain, start, p⟩]
  match t.kind with
  | .reference name => if p.isEmpty then .take [⟨.reference name, start, {}⟩] [] else otherwise
  | .anchor name =>
    if p.anchor.isNone then
      .take [] [.node inBlock hanging start { p with anchor := some name }]
    else otherwise
  | .tag handle suffix =>
    if p.tag.isSome then otherwise
    else
      match resolveTag? handles handle suffix with
      | none => .refuse
      | some tag => .take [] [.node inBlock hanging start { p with tag := some tag }]
  | .scalar text style => .take [⟨.scalar text style, start, p⟩] []
  | .flowSequenceStart => .take [⟨.sequenceStart, start, p⟩] [.flowSequence true]
  | .flowMappingStart => .take [⟨.mappingStart, start, p⟩] [.flowMapping true]
  | .blockSequenceStart =>
    if inBlock then .take [⟨.sequenceStart, start, p⟩] [.blockSequence] else otherwise
  | .blockMappingStart =>
    if inBlock then .take [⟨.mappingStart, start, p⟩] [.blockMapping] else otherwise
  | .blockEntry =>
    if hanging then .take [⟨.sequenceStart, start, p⟩] [.indentlessEntry t.stop] else otherwise
  | _ => otherwise

/-- A node without properties so far. -/
def nodeStart (inBlock hanging : Bool) (t : Token) : Reaction :=
  nodeOn handles inBlock hanging t.start {} t

def blockSequenceOn (t : Token) : Reaction :=
  match t.kind with
  | .blockEntry => .take [] [.blockEntry t.stop]
  | .blockEnd => .take [⟨.sequenceEnd, t.start, {}⟩] []
  | _ => .refuse

def blockEntryOn (m : Mark) (t : Token) : Reaction :=
  match t.kind with
  | .blockEntry | .blockEnd => (blockSequenceOn t).after [.absent m]
  | _ => (nodeStart handles true false t).above [.blockSequence]

def indentlessOn (t : Token) : Reaction :=
  match t.kind with
  | .blockEntry => .take [] [.indentlessEntry t.stop]
  | _ => .leave [⟨.sequenceEnd, t.start, {}⟩]

def indentlessEntryOn (m : Mark) (t : Token) : Reaction :=
  match t.kind with
  | .blockEntry | .key | .value | .blockEnd => (indentlessOn t).after [.absent m]
  | _ => (nodeStart handles true false t).above [.indentless]

def blockMappingOn (t : Token) : Reaction :=
  match t.kind with
  | .key => .take [] [.blockKey t.stop]
  | .blockEnd => .take [⟨.mappingEnd, t.start, {}⟩] []
  | _ => .refuse

def blockValueOn (t : Token) : Reaction :=
  match t.kind with
  | .value => .take [] [.blockValueContent t.stop]
  | _ => (blockMappingOn t).after [.absent t.start]

def blockKeyOn (m : Mark) (t : Token) : Reaction :=
  match t.kind with
  | .key | .value | .blockEnd => (blockValueOn t).after [.absent m]
  | _ => (nodeStart handles true true t).above [.blockValue]

def blockValueContentOn (m : Mark) (t : Token) : Reaction :=
  match t.kind with
  | .key | .value | .blockEnd => (blockMappingOn t).after [.absent m]
  | _ => (nodeStart handles true true t).above [.blockMapping]

/-- The first item of a flow sequence, one behind a comma, or the end. -/
def flowItemOn (t : Token) : Reaction :=
  match t.kind with
  | .flowSequenceEnd => .take [⟨.sequenceEnd, t.start, {}⟩] []
  | .key => .take [⟨.mappingStart, t.start, {}⟩] [.pairKey, .flowSequence false]
  | _ => (nodeStart handles false false t).above [.flowSequence false]

def flowSequenceOn (isFirst : Bool) (t : Token) : Reaction :=
  if isFirst then flowItemOn handles t
  else
    match t.kind with
    | .flowSequenceEnd => .take [⟨.sequenceEnd, t.start, {}⟩] []
    | .flowEntry => .take [] [.flowItem]
    | _ => .refuse

/-- The end of a mapping of one pair shows in the token behind it. -/
def pairEndOn (t : Token) : Reaction :=
  .leave [⟨.mappingEnd, t.start, {}⟩]

def pairValueContentOn (t : Token) : Reaction :=
  match t.kind with
  | .flowEntry | .flowSequenceEnd => (pairEndOn t).after [.absent t.start]
  | _ => (nodeStart handles false false t).above [.pairEnd]

def pairValueOn (t : Token) : Reaction :=
  match t.kind with
  | .value => .take [] [.pairValueContent]
  | _ => (pairEndOn t).after [.absent t.start]

/-- Where the key is left out, the token behind it is passed over. -/
def pairKeyOn (t : Token) : Reaction :=
  match t.kind with
  | .value | .flowEntry | .flowSequenceEnd => .take [.absent t.stop] [.pairValue]
  | _ => (nodeStart handles false false t).above [.pairValue]

/-- The first member of a flow mapping, one behind a comma, or the end. -/
def flowMemberOn (t : Token) : Reaction :=
  match t.kind with
  | .flowMappingEnd => .take [⟨.mappingEnd, t.start, {}⟩] []
  | .key => .take [] [.flowKey]
  | _ => (nodeStart handles false false t).above [.loneKey]

def flowMappingOn (isFirst : Bool) (t : Token) : Reaction :=
  if isFirst then flowMemberOn handles t
  else
    match t.kind with
    | .flowMappingEnd => .take [⟨.mappingEnd, t.start, {}⟩] []
    | .flowEntry => .take [] [.flowMember]
    | _ => .refuse

def loneKeyOn (t : Token) : Reaction :=
  (flowMappingOn handles false t).after [.absent t.start]

def flowValueContentOn (t : Token) : Reaction :=
  match t.kind with
  | .flowEntry | .flowMappingEnd => loneKeyOn handles t
  | _ => (nodeStart handles false false t).above [.flowMapping false]

def flowValueOn (t : Token) : Reaction :=
  match t.kind with
  | .value => .take [] [.flowValueContent]
  | _ => loneKeyOn handles t

def flowKeyOn (t : Token) : Reaction :=
  match t.kind with
  | .value | .flowEntry | .flowMappingEnd => (flowValueOn handles t).after [.absent t.start]
  | _ => (nodeStart handles false false t).above [.flowValue]

/-- The node of a document behind the mark of its beginning. -/
def contentOn (t : Token) : Reaction :=
  match t.kind with
  | .versionDirective _ _ | .tagDirective _ _ | .documentStart | .documentEnd | .streamEnd =>
    .leave [.absent t.start]
  | _ => nodeStart handles true false t

/-- The end of a document needs no mark. -/
def documentEndOn (t : Token) : Reaction :=
  match t.kind with
  | .documentEnd => .take [⟨.documentEnd, t.start, {}⟩] []
  | _ => .leave [⟨.documentEnd, t.start, {}⟩]

def isKnownVersion (major minor : Nat) : Bool :=
  major == 1 && (minor == 1 || minor == 2)

def directivesOn (version : Bool) (known : List (String × String)) (t : Token) : Reaction :=
  match t.kind with
  | .versionDirective major minor =>
    if version || !isKnownVersion major minor then .refuse else .take [] [.directives true known]
  | .tagDirective handle stem =>
    if known.any (·.1 == handle) then .refuse
    else .take [] [.directives version ((handle, stem) :: known)]
  | .documentStart => .take [] [.content, .documentEnd known, .stream false]
  | _ => .refuse

def streamOn (isFirst : Bool) (t : Token) : Reaction :=
  match t.kind with
  | .streamEnd => .take [⟨.streamEnd, t.start, {}⟩] []
  | .versionDirective _ _ | .tagDirective _ _ | .documentStart => directivesOn false [] t
  | .documentEnd =>
    if isFirst then .refuse else .take [] [.stream false]
  | _ =>
    if isFirst then (nodeStart handles true false t).above [.documentEnd [], .stream false]
    else .refuse

def Frame.on (f : Frame) (t : Token) : Reaction :=
  match f with
  | stream isFirst => streamOn handles isFirst t
  | directives version known => directivesOn version known t
  | content => contentOn handles t
  | documentEnd _ => documentEndOn t
  | node inBlock hanging start p => nodeOn handles inBlock hanging start p t
  | blockSequence => blockSequenceOn t
  | blockEntry m => blockEntryOn handles m t
  | indentless => indentlessOn t
  | indentlessEntry m => indentlessEntryOn handles m t
  | blockMapping => blockMappingOn t
  | blockKey m => blockKeyOn handles m t
  | blockValue => blockValueOn t
  | blockValueContent m => blockValueContentOn handles m t
  | flowSequence isFirst => flowSequenceOn handles isFirst t
  | flowItem => flowItemOn handles t
  | pairKey => pairKeyOn handles t
  | pairValue => pairValueOn t
  | pairValueContent => pairValueContentOn handles t
  | pairEnd => pairEndOn t
  | flowMapping isFirst => flowMappingOn handles isFirst t
  | flowMember => flowMemberOn handles t
  | flowKey => flowKeyOn handles t
  | flowValue => flowValueOn handles t
  | flowValueContent => flowValueContentOn handles t
  | loneKey => loneKeyOn handles t

/-- The tag handles of the current document. -/
def handlesIn (stack : List Frame) : List (String × String) :=
  (stack.findSome? fun f => match f with
    | .documentEnd handles => some handles
    | _ => none).getD []

/-- Offers a token to a stack. -/
def feed (t : Token) : List Frame → List Event × Option (List Frame)
  | [] => ([], none)
  | f :: fs =>
    let r := f.on (handlesIn (f :: fs)) t
    match r.outcome with
    | .take new => (r.events, some (new ++ fs))
    | .refuse => (r.events, none)
    | .leave =>
      let (events, stack) := feed t fs
      (r.events ++ events, stack)

/-- The events of tokens, up to the first one that does not fit. -/
def eventsFrom (stack : List Frame) : List Token → List Event
  | [] => []
  | t :: ts =>
    let (events, next) := feed t stack
    events ++ match next with
      | none => []
      | some stack => eventsFrom stack ts

/-- The events of a text, up to the first error. Without one they go on to the end of the stream. -/
def events (text : String) : List Event :=
  eventsFrom [.stream true] (tokens text).1

end Yaml
end InjectionGrammar
