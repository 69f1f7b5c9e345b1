import InjectionGrammar.Json.Skip

/-!
Readers of typed values. A record is read from an object, in any order of its members, or from an
array of its fields. Containers that are read may nest to a limited depth: each reader of one takes
the number of levels that are left.
-/
namespace InjectionGrammar
namespace Json

/-- The number of containers that may be open at once. -/
def depthLimit : Nat := 127

/-- Applies a function to what a reader yields. -/
def Reader.map {α β : Type} (f : α → β) (read : Reader α) : Reader β := fun s =>
  (read s).map fun p => (f p.1, p.2)

/-- Fails for want of the expected value; a scalar in its place is read first. -/
def wrongType {α : Type} (expected : String) (s : List Char) : Except Stop α :=
  match s with
  | [] => stop .endInValue []
  | c :: r =>
    let fail := fun found rest => stop (.wrongType found expected) rest
    if c = 'n' then do
      let rest ← skipWord ['u', 'l', 'l'] r
      fail .null rest
    else if c = 't' then do
      let rest ← skipWord ['r', 'u', 'e'] r
      fail (.boolean true) rest
    else if c = 'f' then do
      let rest ← skipWord ['a', 'l', 's', 'e'] r
      fail (.boolean false) rest
    else if c = '-' then do
      let (n, rest) ← readNumber true r
      fail n.found rest
    else if c.isDigit then do
      let (n, rest) ← readNumber false (c :: r)
      fail n.found rest
    else if c = '"' then do
      let (t, rest) ← readQuoted r
      fail (.string t) rest
    else if c = '[' then fail .array (c :: r)
    else if c = '{' then fail .object (c :: r)
    else stopAt .expectedValue (c :: r)

def readString : Reader String := fun s =>
  match skipSpace s with
  | [] => stop .endInValue []
  | c :: r => if c = '"' then readQuoted r else wrongType "a string" (c :: r)

/-- Reads a string or `null`. -/
def readOptional : Reader (Option String) := fun s =>
  match skipSpace s with
  | [] => stop .endInValue []
  | c :: r =>
    if c = 'n' then (skipWord ['u', 'l', 'l'] r).map fun rest => (none, rest)
    else readString.map some (c :: r)

/-- What follows inside of a container: one more item, which is still to be read, or its end,
which is read. -/
inductive Next where
  | item (s : List Char)
  | done (s : List Char)

/-- Looks for an item of an array. All but the first follow a comma. -/
def nextItem (first : Bool) (s : List Char) : Except Stop Next :=
  match skipSpace s with
  | [] => stop .endInList []
  | c :: r =>
    if c = ']' then .ok (.done r)
    else if first then .ok (.item (c :: r))
    else if c = ',' then
      match skipSpace r with
      | [] => stop .endInValue []
      | d :: t => if d = ']' then stopAt .trailingComma (d :: t) else .ok (.item (d :: t))
    else stopAt .expectedListSeparator (c :: r)

/-- Passes over the quote before a key. -/
def openKey (s : List Char) : Except Stop Next :=
  match s with
  | [] => stop .endInValue []
  | c :: r => if c = '"' then .ok (.item r) else stopAt .keyNotString (c :: r)

/-- Looks for a member of an object; goes on to behind the quote of its key. -/
def nextMember (first : Bool) (s : List Char) : Except Stop Next :=
  match skipSpace s with
  | [] => stop .endInObject []
  | c :: r =>
    if c = '}' then .ok (.done r)
    else if first then openKey (c :: r)
    else if c = ',' then
      match skipSpace r with
      | [] => stop .endInValue []
      | d :: t => if d = '}' then stopAt .trailingComma (d :: t) else openKey (d :: t)
    else stopAt .expectedObjectSeparator (c :: r)

/-- Reads the remaining items of an array. -/
def readItems {α : Type} (item : Reader α) : Nat → Bool → Reader (List α)
  | 0, _, s => stop .endInList s
  | fuel + 1, first, s => do
    match ← nextItem first s with
    | .done r => .ok ([], r)
    | .item r =>
      let (a, r) ← item r
      let (as, r) ← readItems item fuel false r
      .ok (a :: as, r)

def readList {α : Type} (levels : Nat) (item : Reader α) : Reader (List α) := fun s =>
  match skipSpace s with
  | [] => stop .endInValue []
  | c :: r =>
    if c = '[' then
      if levels = 0 then stopAt .tooDeep (c :: r) else readItems item (r.length + 1) true r
    else wrongType "a sequence" (c :: r)

/-- Reads the remaining members of an object whose keys are not known beforehand. -/
def readEntries {κ ν : Type} (key : Reader κ) (value : Reader ν) :
    Nat → Bool → Reader (List (κ × ν))
  | 0, _, s => stop .endInObject s
  | fuel + 1, first, s => do
    match ← nextMember first s with
    | .done r => .ok ([], r)
    | .item r =>
      let (k, r) ← key r
      let r ← colon r
      let (v, r) ← value r
      let (es, r) ← readEntries key value fuel false r
      .ok ((k, v) :: es, r)

/-- Reads an object as the list of its members. -/
def readPairs {κ ν : Type} (levels : Nat) (key : Reader κ) (value : Reader ν) :
    Reader (List (κ × ν)) := fun s =>
  match skipSpace s with
  | [] => stop .endInValue []
  | c :: r =>
    if c = '{' then
      if levels = 0 then stopAt .tooDeep (c :: r) else readEntries key value (r.length + 1) true r
    else wrongType "a map" (c :: r)

/-- A field of a record: its value changes the record. -/
structure Field (σ : Type) where
  name : String
  read : Reader (σ → σ)

/-- How a record is read. If a field is optional all are, and absent ones keep the initial value. -/
structure Layout (σ : Type) where
  title : String
  optional : Bool
  initial : σ
  fields : List (Field σ)

namespace Layout
variable {σ : Type}

/-- The first field that is needed and not among those seen. -/
def missing? (l : Layout σ) (seen : List String) : Option String :=
  if l.optional then none
  else (l.fields.find? fun f => !seen.contains f.name).map (·.name)

/-- Where a fault of an object as a whole is noted: behind its end, if that comes next. -/
def behindEnd (s : List Char) : List Char :=
  match skipSpace s with
  | [] => []
  | c :: r => if c = '}' then r else c :: r

/-- Reads the remaining members of an object. Those without a field are passed over. -/
def readMembers (l : Layout σ) : Nat → Bool → List String → σ → Reader σ
  | 0, _, _, _, s => stop .endInObject s
  | fuel + 1, first, seen, record, s => do
    match ← nextMember first s with
    | .done r =>
      match l.missing? seen with
      | some name => stop (.missingField name) r
      | none => .ok (record, r)
    | .item r =>
      let (key, r) ← readQuoted r
      match l.fields.find? (·.name == key) with
      | none =>
        let r ← colon r
        let r ← skipValue r
        readMembers l fuel false seen record r
      | some f =>
        if seen.contains key then stop (.duplicateField key) (behindEnd r)
        else
          let r ← colon r
          let (change, r) ← f.read r
          readMembers l fuel false (key :: seen) (change record) r

/-- What an array of fixed length is expected to be. -/
def shape (l : Layout σ) : String :=
  l.title ++ " with " ++ numeral l.fields.length ++
    if l.fields.length = 1 then " element" else " elements"

/-- Reads the end of an array whose places are all taken. -/
def readEnd (s : List Char) : Except Stop (List Char) :=
  match skipSpace s with
  | [] => stop .endInList []
  | c :: r =>
    if c = ']' then .ok r
    else if c = ',' then
      match skipSpace r with
      | [] => stop .trailingCharacters []
      | d :: t => stopAt (if d = ']' then .trailingComma else .trailingCharacters) (d :: t)
    else stopAt .trailingCharacters (c :: r)

/-- Reads the items of an array into the remaining fields. -/
def readPlaces (l : Layout σ) : List (Field σ) → σ → Reader σ
  | [], record, s => (readEnd s).map fun r => (record, r)
  | f :: fs, record, s => do
    let place := l.fields.length - (f :: fs).length
    match ← nextItem (place == 0) s with
    | .done r =>
      if l.optional then .ok (record, r) else stop (.wrongLength place l.shape) r
    | .item r =>
      let (change, r) ← f.read r
      readPlaces l fs (change record) r

def read (l : Layout σ) (levels : Nat) : Reader σ := fun s =>
  match skipSpace s with
  | [] => stop .endInValue []
  | c :: r =>
    if c = '[' ∨ c = '{' then
      if levels = 0 then stopAt .tooDeep (c :: r)
      else if c = '[' then l.readPlaces l.fields l.initial r
      else l.readMembers (r.length + 1) true [] l.initial r
    else wrongType l.title (c :: r)

end Layout
end Json
end InjectionGrammar
