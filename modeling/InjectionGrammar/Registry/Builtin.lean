import InjectionGrammar.Registry

/-! The registry used where the user gives none. -/
namespace InjectionGrammar

/-- Languages known from the start. -/
def Registry.builtin : Registry where
  languages := [
    ⟨"python", ["python", "py"], .one "source.python"⟩,
    ⟨"shell", ["shell", "sh", "bash", "zsh"], .one "source.shell"⟩,
    ⟨"powershell", ["powershell", "pwsh", "ps1"], .one "source.powershell"⟩,
    ⟨"javascript", ["javascript", "js"], .one "source.js"⟩,
    ⟨"typescript", ["typescript", "ts"], .one "source.ts"⟩,
    ⟨"json", ["json"], .one "source.json"⟩,
    ⟨"yaml", ["yaml", "yml"], .one "source.yaml"⟩,
    ⟨"toml", ["toml"], .one "source.toml"⟩,
    ⟨"sql", ["sql"], .one "source.sql"⟩,
    ⟨"html", ["html", "htm"], .one "text.html.basic"⟩,
    ⟨"css", ["css"], .one "source.css"⟩,
    ⟨"markdown", ["markdown", "md"], .one "text.html.markdown"⟩,
    ⟨"xml", ["xml"], .one "text.xml"⟩,
    ⟨"php", ["php"], .many ["text.html.php", "source.php"]⟩,
    ⟨"ruby", ["ruby", "rb"], .one "source.ruby"⟩,
    ⟨"lua", ["lua"], .one "source.lua"⟩,
    ⟨"rust", ["rust", "rs"], .one "source.rust"⟩,
    ⟨"go", ["go", "golang"], .one "source.go"⟩,
    ⟨"c", ["c"], .one "source.c"⟩,
    ⟨"cpp", ["cpp", "c++"], .one "source.cpp"⟩,
    ⟨"csharp", ["csharp", "c#", "cs"], .one "source.cs"⟩,
    ⟨"dockerfile", ["dockerfile", "docker"], .one "source.dockerfile"⟩,
    ⟨"jq", ["jq"], .one "source.jq"⟩]

end InjectionGrammar
