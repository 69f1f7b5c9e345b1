/-!
The command line: settings with a value and flags without. A value is part of its setting's word or
follows as a word of its own. A word of its own is taken up when the next setting or flag comes.
-/
namespace InjectionGrammar
namespace CommandLine

/-- What takes a value. -/
inductive Setting where
  | languages
  | config
  | output
  | targetScope
  | scopeName
  deriving DecidableEq, Repr

inductive Flag where
  | stdout
  | check
  | help
  | version
  deriving DecidableEq, Repr

def Setting.name : Setting → String
  | languages => "languages"
  | config => "config"
  | output => "output"
  | targetScope => "target-scope"
  | scopeName => "scope-name"

def Flag.name : Flag → String
  | stdout => "stdout"
  | check => "check"
  | help => "help"
  | version => "version"

/-- The kind of value that a setting takes. -/
def Setting.valueName : Setting → String
  | languages | config | output => "<FILE>"
  | targetScope => "<SCOPE>"
  | scopeName => "<NAME>"

/-- A setting as messages show it. -/
def Setting.label (s : Setting) : String :=
  "--" ++ s.name ++ " " ++ s.valueName

def Flag.label (f : Flag) : String :=
  "--" ++ f.name

/-- A path cannot be empty. -/
def Setting.allowsEmpty : Setting → Bool
  | languages | config | output => false
  | targetScope | scopeName => true

def settings : List Setting :=
  [.languages, .config, .output, .targetScope, .scopeName]

def flags : List Flag :=
  [.stdout, .check, .help, .version]

/-- What a word names. -/
inductive Key where
  | setting (s : Setting)
  | flag (f : Flag)
  deriving DecidableEq, Repr

def keyOfName? (name : String) : Option Key :=
  match settings.find? (·.name == name) with
  | some s => some (.setting s)
  | none => (flags.find? (·.name == name)).map .flag

def keyOfLetter? (c : Char) : Option Key :=
  if c = 'l' then some (.setting .languages)
  else if c = 'c' then some (.setting .config)
  else if c = 'o' then some (.setting .output)
  else if c = 't' then some (.setting .targetScope)
  else if c = 'h' then some (.flag .help)
  else if c = 'V' then some (.flag .version)
  else none

/-- What a command line asks for. -/
structure Arguments where
  languages : Option String := none
  config : Option String := none
  output : Option String := none
  targetScopes : List String := []
  scopeName : Option String := none
  stdout : Bool := false
  check : Bool := false
  deriving DecidableEq, Repr

/-- Why a command line is not accepted. -/
inductive Rejection where
  | unexpectedArgument (word : String)
  | missingValue (s : Setting)
  | unexpectedValue (value : String) (f : Flag)
  | repeated (label : String)
  | conflict (first second : Flag)
  /-- Asks for the help text instead. -/
  | helpWanted
  | versionWanted
  deriving DecidableEq, Repr

namespace Arguments

/-- The value of a setting that can be given once. -/
def value? (a : Arguments) : Setting → Option String
  | .languages => a.languages
  | .config => a.config
  | .output => a.output
  | .scopeName => a.scopeName
  | .targetScope => none

def assign (a : Arguments) (s : Setting) (value : String) : Arguments :=
  match s with
  | .languages => { a with languages := some value }
  | .config => { a with config := some value }
  | .output => { a with output := some value }
  | .scopeName => { a with scopeName := some value }
  | .targetScope => { a with targetScopes := a.targetScopes ++ [value] }

/-- Takes up the value of a setting. -/
def give (a : Arguments) (s : Setting) (value : String) : Except Rejection Arguments :=
  if (a.value? s).isSome then .error (.repeated s.label)
  else if value.isEmpty && !s.allowsEmpty then .error (.missingValue s)
  else .ok (a.assign s value)

end Arguments

/-- The arguments so far, the setting whose value has not been taken up, and whether the flag for
checking came before that for printing. -/
structure State where
  arguments : Arguments
  pending : Option (Setting × Option String)
  checkFirst : Bool

namespace State

def start : State := ⟨{}, none, false⟩

/-- Takes up the pending value. -/
def settle (st : State) : Except Rejection State :=
  match st.pending with
  | none => .ok st
  | some (s, none) => .error (.missingValue s)
  | some (s, some value) => do
    let arguments ← st.arguments.give s value
    return { st with arguments, pending := none }

/-- Takes up a value that is part of the word of its setting. -/
def giveAttached (st : State) (s : Setting) (value : String) : Except Rejection State := do
  let st ← st.settle
  let arguments ← st.arguments.give s value
  return { st with arguments }

/-- Expects the value of a setting in the next word. -/
def expectValue (st : State) (s : Setting) : Except Rejection State := do
  let st ← st.settle
  return { st with pending := some (s, none) }

def raise (st : State) (f : Flag) : Except Rejection State := do
  let st ← st.settle
  let a := st.arguments
  match f with
  | .help => .error .helpWanted
  | .version => .error .versionWanted
  | .stdout =>
    if a.stdout then .error (.repeated f.label)
    else return { st with arguments := { a with stdout := true } }
  | .check =>
    if a.check then .error (.repeated f.label)
    else return { st with arguments := { a with check := true }, checkFirst := !a.stdout }

/-- A word behind two dashes: a name, and a value behind a sign. -/
def readLong (st : State) (name : String) (value : Option String) : Except Rejection State :=
  match keyOfName? name, value with
  | none, _ => .error (.unexpectedArgument ("--" ++ name))
  | some (.setting s), some v => st.giveAttached s v
  | some (.setting s), none => st.expectValue s
  | some (.flag f), some v => .error (.unexpectedValue v f)
  | some (.flag f), none => st.raise f

/-- A word behind one dash: a letter, and a value that follows with or without a sign. -/
def readShort (st : State) (letter : Char) (rest : List Char) : Except Rejection State :=
  match keyOfLetter? letter with
  | none => .error (.unexpectedArgument (String.ofList ['-', letter]))
  | some (.flag f) => st.raise f
  | some (.setting s) =>
    match rest with
    | [] => st.expectValue s
    | c :: cs => st.giveAttached s (String.ofList (if c = '=' then cs else c :: cs))

/-- A word that is no name: the value of the pending setting. -/
def readValue (st : State) (word : String) : Except Rejection State :=
  match st.pending with
  | some (s, none) => .ok { st with pending := some (s, some word) }
  | _ => .error (.unexpectedArgument word)

/-- Reads words up to two dashes alone, behind which there may be nothing. -/
def read (st : State) : List String → Except Rejection State
  | [] => st.settle
  | word :: words =>
    match word.toList with
    | ['-', '-'] =>
      match words with
      | [] => st.settle
      | next :: _ => .error (.unexpectedArgument next)
    | '-' :: '-' :: cs => do
      let name := String.ofList (cs.takeWhile (· ≠ '='))
      let value := match cs.dropWhile (· ≠ '=') with
        | [] => none
        | _ :: v => some (String.ofList v)
      let st ← st.readLong name value
      st.read words
    | '-' :: letter :: rest => do
      let st ← st.readShort letter rest
      st.read words
    | _ => do
      let st ← st.readValue word
      st.read words

end State

/-- Reads the words of a command line, less the name of the program. -/
def parse (words : List String) : Except Rejection Arguments := do
  let st ← State.start.read words
  if st.arguments.stdout && st.arguments.check then
    .error (if st.checkFirst then .conflict .check .stdout else .conflict .stdout .check)
  else return st.arguments

end CommandLine
end InjectionGrammar
