import InjectionGrammar.Language

/-!
Registries: languages in order of precedence. Of the languages that claim an alias the earliest
answers to it; the later claims are conflicts.
-/
namespace InjectionGrammar

structure Registry where
  languages : List Language
  deriving DecidableEq, Repr

namespace Registry

def size (r : Registry) : Nat :=
  r.languages.length

def isEmpty (r : Registry) : Bool :=
  r.languages.isEmpty

/-- The language of the given name. -/
def get? (r : Registry) (name : String) : Option Language :=
  r.languages.find? fun l => l.name == name

/-- The earliest language that answers to an alias. -/
def resolve? (r : Registry) (tag : String) : Option Language :=
  r.languages.find? fun l => l.answersTo tag

/-- A claim to an alias that belongs to an earlier language. -/
structure Conflict where
  identifier : String
  winner : String
  shadowed : String
  deriving DecidableEq, Repr

/-- The aliases claimed so far, each with the name of its owner. -/
abbrev Owners := List (String × String)

/-- Goes through the claims of one language. -/
def claim (name : String) : List String → Owners → List Conflict × Owners
  | [], owners => ([], owners)
  | a :: as, owners =>
    match owners.lookup a with
    | none => claim name as ((a, name) :: owners)
    | some winner =>
      let (conflicts, owners) := claim name as owners
      if winner = name then (conflicts, owners) else (⟨a, winner, name⟩ :: conflicts, owners)

def conflictsFrom (owners : Owners) : List Language → List Conflict
  | [] => []
  | l :: ls =>
    let (conflicts, owners) := claim l.name l.identifiers owners
    conflicts ++ conflictsFrom owners ls

/-- The claims that are never reached, in the order in which they are made. -/
def conflicts (r : Registry) : List Conflict :=
  conflictsFrom [] r.languages

/-- What is wrong with a language by itself. -/
def flaw? (l : Language) : Option Flaw :=
  if isBlankText l.name then some .emptyName
  else if l.identifiers.isEmpty || l.identifiers.any (·.isEmpty) then some (.noIdentifiers l.name)
  else if l.source.isEmpty then some (.noSource l.name)
  else none

/-- Checks languages one after another, given the names of those before them. -/
def checkFrom (names : List String) : List Language → Except Flaw Unit
  | [] => .ok ()
  | l :: ls =>
    match flaw? l with
    | some f => .error f
    | none =>
      if names.contains l.name then .error (.duplicateName l.name)
      else checkFrom (l.name :: names) ls

/-- Finds the first flaw, in registry order. -/
def validate (r : Registry) : Except Flaw Unit :=
  checkFrom [] r.languages

end Registry
end InjectionGrammar
