import InjectionGrammar.Program

/-! The program on the files of the system. -/
namespace InjectionGrammar
namespace Main

/-- A fault as the system reports it. -/
def faultOf (e : IO.Error) : FileFault :=
  match e with
  | .noFileOrDirectory .. => .notFound
  | .alreadyExists .. => .alreadyExists
  | .inappropriateType _ code _ => if code = 20 then .notDirectory else .isDirectory
  | .invalidArgument _ code _ => if code = 36 then .nameTooLong else .failed (toString e)
  | e => .failed (toString e)

def attempt {α : Type} (act : IO α) : IO (Except FileFault α) := do
  match ← act.toBaseIO with
  | .ok a => return .ok a
  | .error e => return .error (faultOf e)

def readFile (path : String) : IO (Except FileFault String) := do
  match ← attempt (IO.FS.readBinFile path) with
  | .error f => return .error f
  | .ok bytes =>
    match String.fromUTF8? bytes with
    | some text => return .ok text
    | none => return .error .notText

/-- Whether a path leads to something, if only to a directory. -/
def exists? (path : String) : IO Bool := do
  match ← readFile path with
  | .ok _ => return true
  | .error .notFound | .error .notDirectory | .error .nameTooLong | .error .invalidName =>
    return false
  | .error _ => return true

/-- Performs a session; the events that the filter selects go to the error output. -/
def perform {α : Type} (filter : Log.Filter) : Session α → IO α
  | .done a => return a
  | .fileExists path next => do
    perform filter (next (← exists? path))
  | .readText path next => do
    perform filter (next (← readFile path))
  | .createParents path next => do
    let r ← match (Path.ancestors path).tail with
      | [] => pure (.ok ())
      | parent :: _ => attempt (IO.FS.createDirAll parent)
    perform filter (next r)
  | .writeText path text next => do
    perform filter (next (← attempt (IO.FS.writeFile path text)))
  | .report event next => do
    if filter.shows event then IO.eprintln event.printedLine
    perform filter next

end Main
end InjectionGrammar

open InjectionGrammar in
/-- Runs the program and ends with its exit code. A home directory that the system has noted for the
user is not looked up. -/
def main (words : List String) : IO UInt32 := do
  let environment : Environment := {
    home := ← IO.getEnv "HOME"
    configHome := ← IO.getEnv "XDG_CONFIG_HOME"
    logWish := ← IO.getEnv "RUST_LOG" }
  let filter := Log.Filter.ofWish environment.logWish
  let report ← Main.perform filter (Program.run environment words)
  (← IO.getStdout).putStr report.output
  (← IO.getStderr).putStr report.errors
  return report.exitCode.toUInt32
