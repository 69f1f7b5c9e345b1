import InjectionGrammar.Yaml.Document

/-!
Readers of typed values from a document. A problem is placed at the value that has it, or, if it
concerns no value of its own, at the record around it.
-/
namespace InjectionGrammar
namespace Yaml

/-- The number of collections that may be open at once. -/
def depthLimit : Nat := 128

/-- The nodes still to be read, and how many references have been followed. -/
structure Position where
  rest : List (Node × Mark)
  followed : Nat

/-- Reads a value at a position of a document; `path` is the way to it. -/
abbrev Reader (α : Type) := Document → Path → Position → Except Fault (α × Position)

/-- Applies a function to what a reader yields. -/
def Reader.map {α β : Type} (f : α → β) (read : Reader α) : Reader β := fun d path p =>
  (read d path p).map fun r => (f r.1, r.2)

/-- A problem whose place is still open. -/
def unplaced {α : Type} (problem : Problem) : Except Fault α :=
  .error (.unfit problem none)

/-- Gives a place to a problem that has none yet. -/
def placing {α : Type} (path : Path) (m : Mark) (r : Except Fault α) : Except Fault α :=
  r.mapError (.placedAt path m)

namespace Document

/-- The next node; where the nodes end early, the fault that ended them. -/
def next (d : Document) (p : Position) : Except Fault (Node × Mark × Position) :=
  match p.rest with
  | [] => .error (d.fault.getD .notYaml)
  | (node, m) :: rest => .ok (node, m, { p with rest })

/-- Reads a node. In the place of a reference the node is read that it refers to. -/
def read {α : Type} (d : Document) (p : Position)
    (content : Node → Mark → Position → Except Fault (α × Position)) :
    Except Fault (α × Position) := do
  let (node, m, p) ← d.next p
  match node with
  | .reference slot =>
    if d.nodes.length * 100 < p.followed + 1 then .error .tooManyReferences
    else
      let (node, m, inside) ←
        d.next ⟨d.nodes.drop ((d.targets.lookup slot).getD 0), p.followed + 1⟩
      let (a, inside) ← content node m inside
      return (a, { p with followed := inside.followed })
  | node => content node m p

end Document

/-- Fails for want of the expected value. -/
def wrongType {α : Type} (expected : String) (node : Node) : Except Fault α :=
  match node with
  | .scalar text style tag =>
    match resolve text style tag with
    | .ok found => unplaced (.wrongType found expected)
    | .error demand => unplaced (.wrongValue text demand)
  | .sequenceStart _ | .sequenceEnd => unplaced (.wrongType .sequence expected)
  | .mappingStart _ | .mappingEnd => unplaced (.wrongType .mapping expected)
  | .nothing | .reference _ => unplaced (.wrongType .null expected)

/-- Reads a scalar as it is written. -/
def readString (expected : String) : Reader String := fun d path p =>
  d.read p fun node m p => placing path m <|
    match node with
    | .scalar text _ _ => .ok (text, p)
    | node => wrongType expected node

/-- Reads a string, or nothing where a plain scalar says so. -/
def readOptional (expected : String) : Reader (Option String) := fun d path p =>
  d.read p fun node m p =>
    let present : Except Fault (Option String × Position) := placing path m <|
      match node with
      | .scalar text _ _ => .ok (some text, p)
      | node => wrongType expected node
    match node with
    | .scalar text .plain tag =>
      match tag with
      | none => if text.isEmpty || isNull text then .ok (none, p) else present
      | some t =>
        if demand? t = some .null then
          if isNull text then .ok (none, p) else unplaced (.wrongValue text .null)
        else present
    | .nothing => .ok (none, p)
    | _ => present

/-- Whether a node takes the place of a collection without content. -/
def Node.isVoid : Node → Bool
  | nothing => true
  | scalar text style _ => text.isEmpty && style = .plain
  | _ => false

/-- Reads the remaining items of a sequence. -/
def readItems {α : Type} (item : Reader α) (d : Document) (path : Path) :
    Nat → Nat → Position → Except Fault (List α × Position)
  | 0, _, _ => .error .notYaml
  | fuel + 1, index, p => do
    match p.rest with
    | (.sequenceEnd, _) :: rest => .ok ([], { p with rest })
    | _ =>
      let (a, p) ← item d (.item path index) p
      let (as, p) ← readItems item d path fuel (index + 1) p
      .ok (a :: as, p)

def readList {α : Type} (levels : Nat) (item : Reader α) : Reader (List α) := fun d path p =>
  d.read p fun node m p => placing path m <|
    match node with
    | .sequenceStart _ =>
      if levels = 0 then .error (.tooDeep m) else readItems item d path (p.rest.length + 1) 0 p
    | node => if node.isVoid then .ok ([], p) else wrongType "a sequence" node

/-- Passes over nodes up to the end of a value with the given number of open collections. -/
def skipNodes (d : Document) (opened : Nat) (followed : Nat) :
    List (Node × Mark) → Except Fault Position
  | [] => .error (d.fault.getD .notYaml)
  | (node, _) :: rest =>
    let opened := match node with
      | .sequenceStart _ | .mappingStart _ => opened + 1
      | .sequenceEnd | .mappingEnd => opened - 1
      | _ => opened
    if opened = 0 then .ok ⟨rest, followed⟩ else skipNodes d opened followed rest

/-- Passes over a value of any kind. -/
def skipValue (d : Document) (p : Position) : Except Fault Position :=
  skipNodes d 0 p.followed p.rest

/-- The way to the member that comes next: a scalar names it. -/
def memberPath (path : Path) (p : Position) : Path :=
  match p.rest with
  | (.scalar text _ _, _) :: _ => .member path text
  | _ => .unnamed path

/-- A field of a record: its value changes the record. -/
structure Field (σ : Type) where
  name : String
  read : Reader (σ → σ)

/-- How a record is read. If a field is optional all are, and absent ones keep the initial value. -/
structure Layout (σ : Type) where
  title : String
  optional : Bool
  initial : σ
  fields : List (Field σ)

namespace Layout
variable {σ : Type}

/-- The record, unless a field is needed and not among those seen. -/
def finish (l : Layout σ) (seen : List String) (record : σ) : Except Fault σ :=
  match l.fields.find? fun f => !seen.contains f.name with
  | some f => if l.optional then .ok record else unplaced (.missingField f.name)
  | none => .ok record

/-- Reads the remaining members of a mapping. Those without a field are passed over. -/
def readMembers (l : Layout σ) (d : Document) (path : Path) :
    Nat → List String → σ → Position → Except Fault (σ × Position)
  | 0, _, _, _ => .error .notYaml
  | fuel + 1, seen, record, p => do
    match p.rest with
    | (.mappingEnd, _) :: rest =>
      let record ← l.finish seen record
      .ok (record, { p with rest })
    | _ =>
      let inner := memberPath path p
      let (key, p) ← readString "field identifier" d path p
      match l.fields.find? (·.name == key) with
      | none =>
        let p ← skipValue d p
        readMembers l d path fuel seen record p
      | some f =>
        if seen.contains key then unplaced (.duplicateField key)
        else
          let (change, p) ← f.read d inner p
          readMembers l d path fuel (key :: seen) (change record) p

def read (l : Layout σ) (levels : Nat) : Reader σ := fun d path p =>
  d.read p fun node m p => placing path m <|
    match node with
    | .mappingStart _ =>
      if levels = 0 then .error (.tooDeep m)
      else l.readMembers d path (p.rest.length + 1) [] l.initial p
    | node =>
      if node.isVoid then (l.finish [] l.initial).map fun record => (record, p)
      else wrongType l.title node

end Layout

/-- What shows of a value whose type is not known beforehand. -/
inductive Content where
  | string (s : String)
  | list (items : List Content)
  | other

/-- The content of a scalar. -/
def contentOfScalar (text : String) (style : Style) (tag : Option String) :
    Except Fault Content :=
  match resolve text style tag with
  | .error demand => unplaced (.wrongValue text demand)
  | .ok (.string s) => .ok (.string s)
  | .ok (.wideInteger n) => unplaced (.wrongType (.wideInteger n) "any value")
  | .ok _ => .ok .other

/-- Reads the remaining members of a mapping, of which nothing shows. -/
def readPairs (value : Reader Content) (d : Document) (path : Path) :
    Nat → Position → Except Fault (Content × Position)
  | 0, _ => .error .notYaml
  | fuel + 1, p => do
    match p.rest with
    | (.mappingEnd, _) :: rest => .ok (.other, { p with rest })
    | _ =>
      let inner := memberPath path p
      let (_, p) ← value d path p
      let (_, p) ← value d inner p
      readPairs value d path fuel p

/-- Reads a value of any kind. -/
def readContent : Nat → Reader Content
  | 0 => fun d path p =>
    d.read p fun node m p => placing path m <|
      match node with
      | .scalar text style tag =>
        if tag.any isLegible then unplaced .localTag
        else (contentOfScalar text style tag).map fun c => (c, p)
      | .sequenceStart tag | .mappingStart tag =>
        if tag.any isLegible then unplaced .localTag else .error (.tooDeep m)
      | _ => .ok (.other, p)
  | levels + 1 => fun d path p =>
    d.read p fun node m p => placing path m <|
      match node with
      | .scalar text style tag =>
        if tag.any isLegible then unplaced .localTag
        else (contentOfScalar text style tag).map fun c => (c, p)
      | .sequenceStart tag =>
        if tag.any isLegible then unplaced .localTag
        else (readItems (readContent levels) d path (p.rest.length + 1) 0 p).map fun r =>
          (.list r.1, r.2)
      | .mappingStart tag =>
        if tag.any isLegible then unplaced .localTag
        else readPairs (readContent levels) d path (p.rest.length + 1) p
      | _ => .ok (.other, p)

/-- Reads a whole text, which holds one document. -/
def Reader.run {α : Type} (read : Reader α) (text : String) : Except Fault α := do
  let d := Document.ofText text
  let (a, _) ← read d .root ⟨d.nodes, 0⟩
  match d.fault with
  | some f => .error f
  | none => if d.isLast then .ok a else .error .severalDocuments

end Yaml
end InjectionGrammar
