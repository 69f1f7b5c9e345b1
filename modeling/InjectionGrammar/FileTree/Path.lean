/-! Paths as text: names with slashes between them. -/
namespace InjectionGrammar
namespace Path

/-- Whether a path begins at the root. -/
def isAbsolute (path : String) : Bool :=
  path.toList.head? = some '/'

/-- Puts a path behind another; an absolute one stands for itself. -/
def join (above below : String) : String :=
  if isAbsolute below then below
  else if above.isEmpty || above.toList.getLast? = some '/' then above ++ below
  else above ++ "/" ++ below

/-- Splits a text at each slash. -/
def splitSlashes : List Char → List (List Char)
  | [] => [[]]
  | c :: s =>
    if c = '/' then [] :: splitSlashes s
    else
      match splitSlashes s with
      | [] => [[c]]
      | name :: names => (c :: name) :: names

/-- What lies between the slashes of a path. -/
def pieces (path : String) : List String :=
  (splitSlashes path.toList).map String.ofList

/-- The pieces that lead to another place. -/
def namesOf (pieces : List String) : List String :=
  pieces.filter (· ≠ "")

/-- The names of a path. -/
def names (path : String) : List String :=
  namesOf (pieces path)

def endsInSlash (path : String) : Bool :=
  path.toList.getLast? = some '/'

/-- The text of pieces. -/
def ofPieces (pieces : List String) : String :=
  String.intercalate "/" pieces

/-- The paths to which pieces lead on the way to the last of them, which is given first. Of dots
that stand for the same directory only one at the beginning leads anywhere. -/
def upwards : List String → List String
  | [] => []
  | piece :: above =>
    if piece = "" ∨ (piece = "." ∧ above ≠ []) then upwards above
    else ofPieces (piece :: above).reverse :: upwards above

/-- A path, without what stands for the same directory at its end, and the paths above it. -/
def ancestors (path : String) : List String :=
  upwards (pieces path).reverse

end Path
end InjectionGrammar
