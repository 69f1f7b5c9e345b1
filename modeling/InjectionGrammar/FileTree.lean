import InjectionGrammar.FileTree.Fault
import InjectionGrammar.FileTree.Path
import InjectionGrammar.OrderedMap

/-!
Trees of files. A place is the list of the names on the way to it from the root. A path is walked
name by name through directories that exist, from the root or from the directory in which a program
runs. A tree holds files and directories, and nothing else: no links and no devices. Nobody is kept
from reading or writing them, and there is always room.
-/
namespace InjectionGrammar

/-- What a file holds: a text, or bytes that encode none. -/
inductive FileTree.Content where
  | text (s : String)
  | data (bytes : List UInt8)
  deriving DecidableEq, Repr

inductive FileTree.Entry where
  | file (content : FileTree.Content)
  | directory
  deriving DecidableEq, Repr

structure FileTree where
  entries : OrderedMap (List String) FileTree.Entry
  deriving DecidableEq

namespace FileTree

/-- What bytes are: a text if they encode one. -/
def Content.ofBytes (bytes : List UInt8) : Content :=
  match String.fromUTF8? ⟨bytes.toArray⟩ with
  | some s => .text s
  | none => .data bytes

/-- The place of an entry. -/
abbrev Place := List String

/-- The directory in which a program runs. It lies in the root, without a name by which a path could
lead into it. -/
def workplace : Place := [""]

/-- Where a path begins. -/
def startOf (path : String) : Place :=
  if Path.isAbsolute path then [] else workplace

def empty : FileTree := ⟨.empty⟩

def entry? (t : FileTree) (p : Place) : Option Entry :=
  if p = [] ∨ p = workplace then some .directory else t.entries.get? p

def isDirectory (t : FileTree) (p : Place) : Bool :=
  t.entry? p = some .directory

def put (t : FileTree) (p : Place) (e : Entry) : FileTree :=
  ⟨t.entries.insert p e⟩

/-- The longest name, in bytes. -/
def longestName : Nat := 255

/-- The longest path, in bytes. -/
def longestPath : Nat := 4095

/-- Goes from a directory to what a name stands for there, whether it exists or not. -/
def enter (t : FileTree) (p : Place) (name : String) : Except FileFault Place :=
  match t.entry? p with
  | none => .error .notFound
  | some (.file _) => .error .notDirectory
  | some .directory =>
    if name = "." then .ok p
    else if name = ".." then .ok p.dropLast
    else if longestName < name.utf8ByteSize then .error .nameTooLong
    else .ok (p ++ [name])

/-- The place that names lead to from another. -/
def walk (t : FileTree) (start : Place) (names : List String) : Except FileFault Place :=
  names.foldlM t.enter start

/-- The names of a path that can be walked at all. -/
def namesFor (path : String) : Except FileFault (List String) :=
  if path.toList.contains '\x00' then .error .invalidName
  else if path.isEmpty then .error .notFound
  else if longestPath < path.utf8ByteSize then .error .nameTooLong
  else .ok (Path.names path)

/-- The place that a path leads to. -/
def locate (t : FileTree) (path : String) : Except FileFault Place := do
  t.walk (startOf path) (← namesFor path)

/-- What a path leads to. -/
def find (t : FileTree) (path : String) : Except FileFault Entry := do
  let p ← t.locate path
  match t.entry? p with
  | none => .error .notFound
  | some (.file content) =>
    if Path.endsInSlash path then .error .notDirectory else .ok (.file content)
  | some .directory => .ok .directory

def contains (t : FileTree) (path : String) : Bool :=
  (t.find path).isOk

/-- The text of a file. -/
def readText (t : FileTree) (path : String) : Except FileFault String := do
  match ← t.find path with
  | .directory => .error .isDirectory
  | .file (.data _) => .error .notText
  | .file (.text s) => .ok s

/-- Whether names end in one that leads to a directory, if anywhere. -/
def endsInDots (names : List String) : Bool :=
  names.getLast?.all fun n => n = "." ∨ n = ".."

/-- Replaces the content of a file, or creates it. Its directory has to exist; only then the last
name is looked at. -/
def write (t : FileTree) (path : String) (content : Content) : Except FileFault FileTree := do
  let names ← namesFor path
  let _ ← t.walk (startOf path) (names.dropLast ++ ["."])
  if Path.endsInSlash path || endsInDots names then .error .isDirectory
  else
    let p ← t.walk (startOf path) names
    if t.isDirectory p then .error .isDirectory else .ok (t.put p (.file content))

/-- Makes a text the content of a file; where that fails the tree stays as it is. -/
def writeText (t : FileTree) (path text : String) : FileTree × Except FileFault Unit :=
  match t.write path (.text text) with
  | .ok t => (t, .ok ())
  | .error f => (t, .error f)

/-- Creates a directory in one that exists. -/
def createDirectory (t : FileTree) (path : String) : Except FileFault FileTree := do
  let names ← namesFor path
  let p ← t.walk (startOf path) names
  if endsInDots names || (t.entry? p).isSome then .error .alreadyExists
  else .ok (t.put p .directory)

/-- Whether a path leads to a directory. -/
def leadsToDirectory (t : FileTree) (path : String) : Bool :=
  match t.find path with
  | .ok e => e = .directory
  | .error _ => false

/-- Creates a directory and those above it that are missing, which are given from the last one
upwards. What has been created stays if the rest fails. -/
def createUpwards (t : FileTree) : List String → FileTree × Except FileFault Unit
  | [] => (t, .ok ())
  | path :: above =>
    match t.createDirectory path with
    | .ok t => (t, .ok ())
    | .error .notFound =>
      match t.createUpwards above with
      | (t, .error f) => (t, .error f)
      | (t, .ok ()) =>
        match t.createDirectory path with
        | .ok t => (t, .ok ())
        | .error f => (t, if t.leadsToDirectory path then .ok () else .error f)
    | .error f => (t, if t.leadsToDirectory path then .ok () else .error f)

/-- Creates the directory that a path leads to. A dot at its end has to be there already. -/
def createAll (t : FileTree) (path : String) : FileTree × Except FileFault Unit :=
  if path.isEmpty then (t, .ok ()) else t.createUpwards (path :: (Path.ancestors path).tail)

/-- Creates the directories that the last name of a path needs. -/
def createParents (t : FileTree) (path : String) : FileTree × Except FileFault Unit :=
  t.createUpwards (Path.ancestors path).tail

/-- Takes away what a path leads to, a directory with all that it holds. -/
def remove (t : FileTree) (path : String) : Except FileFault FileTree := do
  let _ ← t.find path
  let p ← t.locate path
  .ok ⟨t.entries.filter fun e => !p.isPrefixOf e.1⟩

/-- The names that lead from the working directory to a place below it. -/
def namesBelow? : Place → Option (List String)
  | name :: names => if [name] = workplace then some names else none
  | [] => none

/-- The entries below the working directory, by the names that lead to them. -/
def listing (t : FileTree) : List (List String × Entry) :=
  t.entries.entries.filterMap fun e => (namesBelow? e.1).map fun names => (names, e.2)

/-- The entries below the working directory that another tree does not have. -/
def changesFrom (t before : FileTree) : List (List String × Entry) :=
  t.listing.filter fun e => !before.listing.contains e

/-- An entry as a list of them shows it: directories end in a slash. -/
def Entry.label (names : List String) : Entry → String
  | .file _ => Path.ofPieces names
  | .directory => Path.ofPieces names ++ "/"

/-- All entries below the working directory, in the order of their labels. -/
def labels (t : FileTree) : List String :=
  (t.listing.map fun e => e.2.label e.1).mergeSort (· ≤ ·)

end FileTree
end InjectionGrammar
