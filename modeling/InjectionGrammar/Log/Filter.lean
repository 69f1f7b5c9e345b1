import InjectionGrammar.Log.Directive

/-! Which events of a log are shown. -/
namespace InjectionGrammar
namespace Log

/-- How much detail it takes for an event to show. -/
def Level.detail : Level → Nat
  | .warn => 2
  | .info => 3
  | .debug => 4

/-- Of the directives for an event the one that asks most of it counts, and of two that ask the same
the later one. -/
abbrev Filter := List Directive

/-- Splits a text at each comma. -/
def splitCommas : List Char → List (List Char)
  | [] => [[]]
  | c :: s =>
    if c = ',' then [] :: splitCommas s
    else
      match splitCommas s with
      | [] => [[c]]
      | part :: parts => (c :: part) :: parts

namespace Filter

/-- Shows warnings and what matters more. -/
def standard : Filter := [{ detail := 2 }]

/-- Reads directives with commas between them. -/
def ofText? (s : String) : Option Filter :=
  ((splitCommas s.toList).filter fun part => !part.isEmpty).mapM Directive.ofChars?

/-- The filter that a user asks for; without a wish, or one that cannot be read, the standard. -/
def ofWish (wish : Option String) : Filter :=
  (wish.bind ofText?).getD standard

/-- The detail shown of events with a target. -/
def detailFor (f : Filter) (target : String) : Nat :=
  (f.foldl (fun best d =>
    let outranked := best.1.1 < d.rank.1 || (best.1.1 == d.rank.1 && best.1.2 ≤ d.rank.2)
    if d.selects target && outranked then (d.rank, d.detail) else best)
    ((0, 0), 0)).2

def shows (f : Filter) (e : Event) : Bool :=
  e.level.detail ≤ f.detailFor e.origin.target

/-- The events that are shown. -/
def select (f : Filter) (es : List Event) : List Event :=
  es.filter f.shows

end Filter
end Log
end InjectionGrammar
