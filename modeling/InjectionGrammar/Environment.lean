import InjectionGrammar.FileTree.Path

/-! The environment of a run, and where it keeps the files of a user, if anywhere. -/
namespace InjectionGrammar

structure Environment where
  /-- The home directory that is asked for. An empty text does not count. -/
  home : Option String := none
  /-- The home directory that the system has noted for the user. An empty text does not count. -/
  accountHome : Option String := none
  /-- The directory of all configurations, if it is not the usual one. An empty text counts. -/
  configHome : Option String := none
  /-- Which events are to be shown. -/
  logWish : Option String := none
  deriving DecidableEq, Repr

namespace Environment

def homeDirectory (e : Environment) : Option String :=
  (e.home.filter (· ≠ "")).or (e.accountHome.filter (· ≠ ""))

def configDirectory (e : Environment) : Option String :=
  let configurations := e.configHome.or (e.homeDirectory.map (Path.join · ".config"))
  configurations.map (Path.join · "tagged-grammar")

def configFile (e : Environment) : Option String :=
  e.configDirectory.map (Path.join · "config.yaml")

def languagesFile (e : Environment) : Option String :=
  e.configDirectory.map (Path.join · "languages.yaml")

end Environment
end InjectionGrammar
