/-! Selectors: where an editor injects the grammar. -/
namespace InjectionGrammar
namespace Selector

/-- Injects into a scope, ahead of its own rules, but not into comments and strings. -/
def clause (scope : String) : String :=
  "L:" ++ scope ++ " -comment -(string - meta.embedded)"

def ofScopes (scopes : List String) : String :=
  String.intercalate ", " (scopes.map clause)

/-- The scopes to inject into where the user names none. -/
def defaultScopes : List String :=
  ["source.yaml"]

end Selector
end InjectionGrammar
