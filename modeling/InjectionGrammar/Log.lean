import InjectionGrammar.Registry
import InjectionGrammar.Text.Numeral

/-! What a run reports while it works. -/
namespace InjectionGrammar
namespace Log

/-- How much an event matters, the least first. -/
inductive Level where
  | debug
  | info
  | warn
  deriving DecidableEq, Repr

def Level.label : Level → String
  | .debug => "DEBUG"
  | .info => "INFO"
  | .warn => "WARN"

/-- The part of the program that an event comes from. -/
inductive Origin where
  | registry
  | config
  | output
  | builder
  deriving DecidableEq, Repr

/-- The name under which a filter selects the events of a part. -/
def Origin.target : Origin → String
  | .registry => "tagged_grammar::registry"
  | .config => "tagged_grammar::config"
  | .output => "tagged_grammar::output"
  | .builder => "tagged_grammar::grammar::builder"

inductive Event where
  | registryRequested (path : String)
  | userRegistryFound (path : String)
  | builtinRegistryUsed
  | configDirectoryMissing
  | configMissing (path : String)
  | configLoaded (path : String)
  | configRejected (reason : String)
  | tagClaimedTwice (conflict : Registry.Conflict)
  | grammarBuilt (scopeName : String) (languages : Nat)
  | grammarMissing (path : String)
  | grammarWritten (path : String)
  deriving DecidableEq, Repr

namespace Event

def level : Event → Level
  | registryRequested _ | userRegistryFound _ | configLoaded _ | grammarWritten _ => .info
  | builtinRegistryUsed | configDirectoryMissing | configMissing _ | grammarBuilt _ _
  | grammarMissing _ => .debug
  | configRejected _ | tagClaimedTwice _ => .warn

def origin : Event → Origin
  | registryRequested _ | userRegistryFound _ | builtinRegistryUsed => .registry
  | configDirectoryMissing | configMissing _ | configLoaded _ | configRejected _ => .config
  | tagClaimedTwice _ | grammarBuilt _ _ => .builder
  | grammarMissing _ | grammarWritten _ => .output

def message : Event → String
  | registryRequested path => "Loading language registry from " ++ path
  | userRegistryFound path => "Loading user language registry from " ++ path
  | builtinRegistryUsed => "Using builtin language registry"
  | configDirectoryMissing => "No config directory available, using defaults"
  | configMissing path => "Config file not found at " ++ path ++ ", using defaults"
  | configLoaded path => "Loaded config from " ++ path
  | configRejected reason => reason
  | tagClaimedTwice c =>
    "Alias '" ++ c.identifier ++ "' is claimed by '" ++ c.winner ++ "' and '" ++ c.shadowed ++
      "'; '" ++ c.winner ++ "' wins"
  | grammarBuilt name n =>
    "Built grammar '" ++ name ++ "' with " ++ numeral n ++ " languages"
  | grammarMissing path => "No grammar at " ++ path
  | grammarWritten path => "Wrote grammar to " ++ path

/-- An event as a line of a log. -/
def line (e : Event) : String :=
  e.level.label ++ " " ++ e.message

/-- The field of every event that holds its message. -/
def field : String := "message"

/-- A character as the terminal gets it: those that it might obey are written by their code. -/
def printedChar (c : Char) : List Char :=
  if c = '\x07' ∨ c = '\x08' ∨ c = '\x0c' ∨ c = '\x1b' ∨ c = '\x7f' then
    ['\\', 'x'] ++ Nat.toDigits 16 (c.toNat / 16) ++ Nat.toDigits 16 (c.toNat % 16)
  else if 0x80 ≤ c.toNat ∧ c.toNat ≤ 0x9f then
    ['\\', 'u', '\x7b'] ++ Nat.toDigits 16 c.toNat ++ ['\x7d']
  else [c]

/-- The line that appears on a terminal. -/
def printedLine (e : Event) : String :=
  e.level.label ++ " " ++ String.ofList (e.message.toList.flatMap printedChar)

end Event
end Log
end InjectionGrammar
