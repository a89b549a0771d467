import SectionIndex.Language.Basic
import SectionIndex.Files.Path

/-!
# The table of languages

The languages this library knows, and the choice of a language by the extension of a file.

## Main definitions

* `Language.all` — the table.
* `Language.ofPath?` — the language of a file.
-/

namespace SectionIndex

namespace Language

open Pattern

/-- Any number of blanks. -/
def blanks : Pattern := .run 0 .blank

/-- One blank or more. -/
def gap : Pattern := .run 1 .blank

/-- One word character or more. -/
def identifier : Pattern := .run 1 .word

/-- Three equals signs or more. -/
def rule : Pattern := .run 3 (.oneOf "=")

/-- The end of a region start: the name, and a description after a dash. The name ends at the
first dash, so `api-client` is the name `api` with the description `client`. -/
def nameAndDescription : Pattern :=
  inOrder
    [.group 1 (.shortRun 1 .inLine),
     .optional (inOrder
       [blanks, firstOf [.word "—", .word "-"], blanks, .group 2 (.run 1 .inLine)]),
     .lineEnd]

/-- A section marker: the comment sign, the word, the name, and rules around them. -/
def sectionMark (comment : Text) : Pattern :=
  inOrder
    [.word comment, blanks, .optional (inOrder [rule, blanks]), .anyCase "section:", blanks,
     .group 1 (.shortRun 1 .inLine), .optional (inOrder [blanks, rule]), blanks, .lineEnd]

/-- A rule for the start of a line. -/
def atStart (parts : List Pattern) : Rule :=
  ⟨true, inOrder parts⟩

/-- A rule for any place in a line. -/
def anywhere (parts : List Pattern) : Rule :=
  ⟨false, inOrder parts⟩

/-- TypeScript and JavaScript. -/
def typescript : Language where
  name := "ts"
  extensions := [".ts", ".tsx", ".js", ".jsx", ".mjs", ".cjs"]
  regionStart := some (atStart [.word "//#region", gap, nameAndDescription])
  regionEnd := some (atStart [.word "//#endregion"])
  sectionMarker := some ⟨false, sectionMark "//"⟩
  detectors :=
    [⟨atStart [.word "import", gap], "imports", 1⟩,
     ⟨atStart [.word "export", gap, .word "type", gap], "types", 2⟩,
     ⟨atStart [.optional (inOrder [.word "export", gap]), .word "interface", gap, identifier,
       .word "State"], "types/state", 3⟩,
     ⟨atStart [.optional (inOrder [.word "export", gap]), .word "interface", gap, identifier,
       .word "Actions"], "types/actions", 3⟩,
     ⟨atStart [.optional (inOrder [.word "export", gap]), .word "interface", gap], "types", 2⟩,
     ⟨atStart [.optional (inOrder [.word "export", gap]), .word "type", gap], "types", 2⟩,
     ⟨atStart [.word "const", gap, .word "initial", .run 0 .word, blanks,
       firstOf [.word "=", .word ":"]], "state/initial", 4⟩,
     ⟨atStart [.word "export", gap, .word "const", gap, .word "use", identifier, .word "Store",
       blanks, .word "="], "store", 5⟩,
     ⟨anywhere [.word "create<", .run 0 .inLine, .word ">(", blanks, .optional (.word "(")],
       "store", 5⟩,
     ⟨atStart [.word "export", gap, .word "const", gap, .word "select", identifier],
       "selectors", 8⟩,
     ⟨atStart [.word "export", gap, .word "function", gap, .word "use", identifier], "hooks", 9⟩]

/-- The methods of a web route decorator. -/
def routeMethod : Pattern :=
  firstOf [.word "get", .word "post", .word "put", .word "delete", .word "patch"]

/-- Python. -/
def python : Language where
  name := "python"
  extensions := [".py", ".pyw", ".pyi"]
  regionStart := some (atStart
    [.word "#", blanks, .word "region", blanks, .run 0 (.blankOr ":"), nameAndDescription])
  regionEnd := some (atStart [.word "#", blanks, .word "endregion"])
  sectionMarker := some ⟨true, sectionMark "#"⟩
  detectors :=
    [⟨atStart [firstOf [.word "from", .word "import"], gap], "imports", 1⟩,
     ⟨atStart [.word "class", gap, identifier, blanks, .word "("], "classes", 3⟩,
     ⟨atStart [.word "class", gap, identifier, .word "Model", blanks, .word "("], "models", 2⟩,
     ⟨atStart [.word "@dataclass"], "dataclasses", 2⟩,
     ⟨atStart [.word "@app.", routeMethod], "routes", 4⟩,
     ⟨atStart [.word "@router.", routeMethod], "routes", 4⟩,
     ⟨atStart [.word "def", gap, .word "test_"], "tests", 5⟩,
     ⟨atStart [.word "async", gap, .word "def", gap], "async", 3⟩]
  blockStyle := some .hash

/-- The region start of the languages that write a colon after the word. -/
def slashRegion : Rule :=
  atStart [.word "//", blanks, .word "region:", blanks, nameAndDescription]

/-- The region end of the languages with line comments of two slashes. -/
def slashEndregion : Rule :=
  atStart [.word "//", blanks, .word "endregion"]

/-- Rust. -/
def rust : Language where
  name := "rust"
  extensions := [".rs"]
  regionStart := some slashRegion
  regionEnd := some slashEndregion
  sectionMarker := some ⟨true, sectionMark "//"⟩
  detectors :=
    [⟨atStart [.word "use", gap], "imports", 1⟩,
     ⟨atStart [.word "mod", gap], "modules", 2⟩,
     ⟨atStart [.word "pub", gap, .word "struct", gap], "structs", 3⟩,
     ⟨atStart [.word "pub", gap, .word "enum", gap], "enums", 3⟩,
     ⟨atStart [.word "impl", gap], "impl", 4⟩,
     ⟨atStart [.word "pub", gap, .word "fn", gap], "functions", 5⟩,
     ⟨atStart [.word "#[test]"], "tests", 6⟩]

/-- Go. -/
def go : Language where
  name := "go"
  extensions := [".go"]
  regionStart := some slashRegion
  regionEnd := some slashEndregion
  sectionMarker := some ⟨true, sectionMark "//"⟩
  detectors :=
    [⟨atStart [.word "import", blanks, .word "("], "imports", 1⟩,
     ⟨atStart [.word "type", gap, identifier, gap, .word "struct", blanks, .word ['\x7b']],
       "types", 2⟩,
     ⟨atStart [.word "type", gap, identifier, gap, .word "interface", blanks, .word ['\x7b']],
       "interfaces", 2⟩,
     ⟨atStart [.word "func", gap, .word "(", identifier, gap, .optional (.word "*"), identifier,
       .word ")"], "methods", 3⟩,
     ⟨atStart [.word "func", gap, identifier], "functions", 4⟩,
     ⟨atStart [.word "func", gap, .word "Test", identifier], "tests", 5⟩]

/-- C#. -/
def csharp : Language where
  name := "csharp"
  extensions := [".cs"]
  regionStart := some (atStart [blanks, .word "#region", gap, nameAndDescription])
  regionEnd := some (atStart [blanks, .word "#endregion"])
  sectionMarker := some ⟨false, sectionMark "//"⟩
  detectors :=
    [⟨atStart [.word "using", gap], "imports", 1⟩,
     ⟨atStart [.word "namespace", gap], "namespace", 2⟩,
     ⟨atStart [.word "public", gap, .word "class", gap], "classes", 3⟩,
     ⟨atStart [.word "public", gap, .word "interface", gap], "interfaces", 3⟩,
     ⟨atStart [.word "public", gap, .word "enum", gap], "enums", 3⟩,
     ⟨atStart [.word "[Test]"], "tests", 5⟩]

/-- Java, Kotlin and Scala. -/
def java : Language where
  name := "java"
  extensions := [".java", ".kt", ".scala"]
  regionStart := some (atStart [.word "//", blanks, .word "region", blanks, nameAndDescription])
  regionEnd := some slashEndregion
  sectionMarker := some ⟨false, sectionMark "//"⟩
  detectors :=
    [⟨atStart [.word "import", gap], "imports", 1⟩,
     ⟨atStart [.word "package", gap], "package", 0⟩,
     ⟨atStart [.word "public", gap, .word "class", gap], "classes", 2⟩,
     ⟨atStart [.word "public", gap, .word "interface", gap], "interfaces", 2⟩,
     ⟨atStart [.word "public", gap, .word "enum", gap], "enums", 2⟩,
     ⟨atStart [.word "@Test"], "tests", 5⟩]

/-- YAML. -/
def yaml : Language where
  name := "yaml"
  extensions := [".yaml", ".yml"]
  regionStart := some (atStart
    [.word "#", blanks, .word "region:", blanks, nameAndDescription])
  regionEnd := some (atStart [.word "#", blanks, .word "endregion"])
  sectionMarker := some ⟨true, sectionMark "#"⟩
  blockStyle := some .hash

/-- JSON. It has no comments, so no regions and no block. -/
def json : Language where
  name := "json"
  extensions := [".json", ".json5", ".jsonc"]
  regionStart := none
  regionEnd := none
  sectionMarker := some (anywhere [.word "\"__section__", .group 1 identifier, .word "__\""])
  detectors :=
    [⟨anywhere [.word "\"nodes\"", blanks, .word ":", blanks, .word ['\x7b']], "nodes", 5⟩,
     ⟨anywhere [.word "\"edges\"", blanks, .word ":", blanks, .word ['\x7b']], "edges", 5⟩,
     ⟨anywhere [.word "\"config\"", blanks, .word ":", blanks, .word ['\x7b']], "config", 5⟩]
  blockStyle := none

/-- **The table of languages.** -/
def all : List Language :=
  [typescript, python, rust, go, csharp, java, yaml, json]

/-- The name shown for a file whose language is not in the table. -/
def unknownName : Text := "unknown"

/-- **The language of a file:** the first with the extension, whatever the letter case. -/
def ofPath? (path : Path) : Option Language :=
  all.find? (·.extensions.contains (foldCase path.suffix))

/-- The name shown for a file's language. -/
def nameOf (language? : Option Language) : Text :=
  language?.elim unknownName Language.name

end Language

end SectionIndex
