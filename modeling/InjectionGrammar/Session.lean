import InjectionGrammar.FileTree
import InjectionGrammar.Log

/-!
Sessions: computations that use files and report events. A session is a value; its meaning on a
file tree is a function.
-/
namespace InjectionGrammar

/-- The next thing to do, and what comes after it. -/
inductive Session (α : Type) where
  | done (a : α)
  | fileExists (path : String) (next : Bool → Session α)
  | readText (path : String) (next : Except FileFault String → Session α)
  | createParents (path : String) (next : Except FileFault Unit → Session α)
  | writeText (path text : String) (next : Except FileFault Unit → Session α)
  | report (event : Log.Event) (next : Session α)

namespace Session
variable {α β : Type}

/-- Goes on with the result of a session. -/
def bind : Session α → (α → Session β) → Session β
  | done a, k => k a
  | fileExists path next, k => .fileExists path fun b => (next b).bind k
  | readText path next, k => .readText path fun r => (next r).bind k
  | createParents path next, k => .createParents path fun r => (next r).bind k
  | writeText path text next, k => .writeText path text fun r => (next r).bind k
  | report event next, k => .report event (next.bind k)

instance : Monad Session where
  pure := .done
  bind := .bind

/-- What a session leaves behind: its result, the files, and the events in their order. -/
structure Outcome (α : Type) where
  result : α
  files : FileTree
  events : List Log.Event

/-- The meaning of a session on a file tree. -/
def run (t : FileTree) : Session α → Outcome α
  | done a => ⟨a, t, []⟩
  | fileExists path next => (next (t.contains path)).run t
  | readText path next => (next (t.readText path)).run t
  | createParents path next =>
    let (t, r) := t.createParents path
    (next r).run t
  | writeText path text next =>
    let (t, r) := t.writeText path text
    (next r).run t
  | report event next =>
    let o := next.run t
    { o with events := event :: o.events }

end Session

/-! The effects of a session, each as a session of its own. -/
namespace Files

/-- Whether a path leads to something. -/
def contain (path : String) : Session Bool := .fileExists path .done

/-- The text of a file. -/
def readText (path : String) : Session (Except FileFault String) := .readText path .done

/-- A path that leads to something, if there is one. -/
def present? : Option String → Session (Option String)
  | none => return none
  | some path => do return if ← contain path then some path else none

/-- What the text of a file means. -/
def readAs {ε α : Type} (path : String) (unreadable : FileFault → ε)
    (meaning : String → Except ε α) : Session (Except ε α) := do
  match ← readText path with
  | .error f => return .error (unreadable f)
  | .ok text => return meaning text

/-- Creates the directories that the last name of a path needs. -/
def createParents (path : String) : Session (Except FileFault Unit) := .createParents path .done

/-- Replaces the content of a file, or creates it. -/
def writeText (path text : String) : Session (Except FileFault Unit) := .writeText path text .done

end Files

namespace Log

def report (event : Event) : Session Unit := .report event (.done ())

/-- Reports events one after another. -/
def reportAll : List Event → Session Unit
  | [] => .done ()
  | e :: es => .report e (reportAll es)

end Log
end InjectionGrammar
