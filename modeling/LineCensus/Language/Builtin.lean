import LineCensus.Language.Registry

/-!
The languages that are known without being told: their extensions and the styles of their comments.
-/

namespace LineCensus.Language

def builtinExtensions : List (String × String) := [
  (".js", "JavaScript"), (".jsx", "JavaScript"), (".mjs", "JavaScript"), (".cjs", "JavaScript"),
  (".ts", "TypeScript"), (".tsx", "TypeScript"), (".mts", "TypeScript"), (".cts", "TypeScript"),
  (".html", "HTML"), (".htm", "HTML"), (".css", "CSS"), (".scss", "SCSS"), (".sass", "Sass"),
  (".less", "Less"), (".c", "C"), (".h", "C"), (".cpp", "C++"), (".cc", "C++"), (".cxx", "C++"),
  (".hpp", "C++"), (".hh", "C++"), (".hxx", "C++"), (".cs", "C#"), (".java", "Java"),
  (".kt", "Kotlin"), (".kts", "Kotlin"), (".scala", "Scala"), (".groovy", "Groovy"),
  (".go", "Go"), (".rs", "Rust"), (".swift", "Swift"), (".py", "Python"), (".pyw", "Python"),
  (".pyi", "Python"), (".rb", "Ruby"), (".php", "PHP"), (".pl", "Perl"), (".lua", "Lua"),
  (".sh", "Shell"), (".bash", "Bash"), (".zsh", "Zsh"), (".fish", "Fish"), (".sql", "SQL"),
  (".json", "JSON"), (".yaml", "YAML"), (".yml", "YAML"), (".xml", "XML"), (".toml", "TOML"),
  (".md", "Markdown"), (".markdown", "Markdown"), (".r", "R"), (".m", "Objective-C"),
  (".mm", "Objective-C++"), (".dart", "Dart"), (".ex", "Elixir"), (".exs", "Elixir"),
  (".erl", "Erlang"), (".hrl", "Erlang"), (".hs", "Haskell"), (".lhs", "Haskell"),
  (".vim", "VimScript"), (".el", "EmacsLisp"), (".clj", "Clojure"), (".cljs", "ClojureScript"),
  (".lisp", "CommonLisp"), (".scm", "Scheme")]

def builtinStyles : List CommentStyle := [
  { name := "c_style"
    languages := [
      "JavaScript", "TypeScript", "C", "C++", "C#", "Java", "Kotlin", "Scala", "Go", "Rust",
      "Swift", "Dart", "PHP", "Groovy", "Objective-C", "Objective-C++"]
    markers := ⟨["//"], [⟨"/*", "*/"⟩]⟩ },
  { name := "hash_style"
    languages := [
      "Python", "Ruby", "Shell", "Bash", "Zsh", "Fish", "Perl", "R", "YAML", "TOML", "Elixir"]
    markers := ⟨["#"], []⟩ },
  { name := "dash_style"
    languages := [
      "SQL", "Lua", "Haskell"]
    markers := ⟨["--"], []⟩ },
  { name := "markup_style"
    languages := [
      "HTML", "XML"]
    markers := ⟨[], [⟨"<!--", "-->"⟩]⟩ },
  { name := "css_style"
    languages := [
      "CSS", "SCSS", "Sass", "Less"]
    markers := ⟨[], [⟨"/*", "*/"⟩]⟩ }]

def builtinRegistry : Registry := .make builtinExtensions builtinStyles

end LineCensus.Language
