import SectionIndex.Text.Basic
import SectionIndex.Text.Lines

/-!
# Environment files

A file of variables, one on a line as `NAME=value`, with the word `export` before it or not. Values
can stand in quotes, over several lines, and can refer to variables as `${NAME}` or, with a value
in case there is none, as `${NAME:-value}`. A line that is none of this is passed over.

## Main definitions

* `EnvironmentFile.bindings` — the lines of a file.
* `EnvironmentFile.expandReferences` — a value with the variables it refers to.
* `EnvironmentFile.assignments` — the variables of a file.
-/

namespace SectionIndex

namespace EnvironmentFile

/-- **A variable as it is given.** The value is none if there is a name only. -/
abbrev Binding := Text × Option Text

/-- White space inside a line. -/
def isInline (c : Char) : Bool :=
  isBlank c && c != '\n'

/-- What follows the line that the text starts in. -/
def skipLine (t : Text) : Text :=
  (t.dropWhile (· != '\n')).drop 1

/-- The word that may stand before a name. -/
def exportWord : Text := "export"

/-- The text without the word that may stand before a name. -/
def skipExport (t : Text) : Text :=
  let rest := t.drop exportWord.length
  if exportWord.isPrefixOf t ∧ rest.head?.any isInline then rest.dropWhile isInline else t

/-- The characters of a name without quotes. -/
def isNameChar (c : Char) : Bool :=
  c != '=' && c != '#' && !isBlank c

/-- The name at the start of a text, and what follows it. At a comment there is no name, and none
is missed. -/
def readName (t : Text) : Option (Option Text × Text) :=
  match t with
  | '#' :: _ => some (none, t)
  | '\'' :: t =>
    let name := t.takeWhile (· != '\'')
    match name, t.dropWhile (· != '\'') with
    | _ :: _, _ :: rest => some (some name, rest)
    | _, _ => none
  | t =>
    match t.takeWhile isNameChar with
    | [] => none
    | name => some (some name, t.dropWhile isNameChar)

/-- The text up to a closing quote, and what follows. The character after a backslash belongs to it
and closes nothing. -/
def readQuoted (quote : Char) : Text → Option (Text × Text)
  | [] => none
  | '\\' :: c :: t =>
    (readQuoted quote t).map fun (value, rest) => ('\\' :: c :: value, rest)
  | c :: t =>
    if c = quote then some ([], t)
    else (readQuoted quote t).map fun (value, rest) => (c :: value, rest)

/-- The character that a letter stands for after a backslash between double quotes. -/
def escaped? : Char → Option Char
  | '\\' => some '\\'
  | '\'' => some '\''
  | '"' => some '"'
  | 'a' => some '\x07'
  | 'b' => some '\x08'
  | 'f' => some '\x0c'
  | 'n' => some '\n'
  | 'r' => some '\r'
  | 't' => some '\t'
  | 'v' => some '\x0b'
  | _ => none

/-- The character that one stands for after a backslash between quotes of this kind. Between
single quotes only backslashes and single quotes have an escape. -/
def escapedIn? (quote c : Char) : Option Char :=
  if quote = '"' ∨ c = '\\' ∨ c = '\'' then escaped? c else none

/-- The text with its escapes replaced. -/
def unescape (quote : Char) : Text → Text
  | [] => []
  | [c] => [c]
  | c :: d :: t =>
    if c = '\\' then
      match escapedIn? quote d with
      | some e => e :: unescape quote t
      | none => c :: unescape quote (d :: t)
    else c :: unescape quote (d :: t)

/-- A value without quotes: a comment can follow after white space. -/
def plainValue : (afterBlank : Bool) → Text → Text
  | _, [] => []
  | afterBlank, c :: t =>
    if c = '#' ∧ afterBlank then [] else c :: plainValue (isBlank c) t

/-- The value at the start of a text, and what follows it. White space before it can be followed by
a comment at once. -/
def readValue (afterBlank : Bool) (t : Text) : Option (Text × Text) :=
  match t with
  | [] => some ([], [])
  | c :: rest =>
    if c = '\'' ∨ c = '"' then
      (readQuoted c rest).map fun (value, rest) => (unescape c value, rest)
    else
      let line := t.takeWhile (· != '\n')
      some (Text.trimEnd isBlank (plainValue afterBlank line), t.drop line.length)

/-- The equals sign and the value at the start of a text, if there is a sign, and what follows. -/
def readAssigned (t : Text) : Option (Option Text × Text) :=
  match t with
  | '=' :: t =>
    (readValue (t.head?.any isInline) (t.dropWhile isInline)).map fun (value, rest) =>
      (some value, rest)
  | t => some (none, t)

/-- What follows the end of a line, before which a comment may stand and nothing else. -/
def readLineEnd (t : Text) : Option Text :=
  match t.dropWhile isInline with
  | '#' :: t => some (skipLine t)
  | '\n' :: t => some t
  | [] => some []
  | _ => none

/-- **The variable that a line gives**, if it gives one, and what follows the line. -/
def readLine (t : Text) : Option Binding × Text :=
  let line := skipExport t
  match readName line with
  | none => (none, skipLine line)
  | some (name, afterName) =>
    -- a quoted value can end lines below, so what is skipped starts where the fault stands
    match readAssigned (afterName.dropWhile isInline) with
    | none => (none, skipLine afterName)
    | some (value, afterValue) =>
      match readLineEnd afterValue with
      | none => (none, skipLine afterValue)
      | some rest => (name.map (·, value), rest)

/-- The variables that the lines of a text give; `fuel` is at least the number of lines. -/
def bindingsFrom : (fuel : Nat) → Text → List Binding
  | 0, _ => []
  | fuel + 1, t =>
    match t.dropWhile isBlank with
    | [] => []
    | t =>
      let (binding, rest) := readLine t
      binding.toList ++ bindingsFrom fuel rest

/-- The text without a byte order mark. -/
def skipMark : Text → Text
  | '\ufeff' :: t => t
  | t => t

/-- **The variables that a file gives**, line by line. -/
def bindings (content : Text) : List Binding :=
  bindingsFrom content.length (skipMark content)

/-- The value of a variable, or the one to take if there is none. A name that was given without a
value has an empty one. -/
def valueOr (known : List Binding) (name default : Text) : Text :=
  match known.lookup name with
  | some value => value.getD []
  | none => default

/-- **The value with the variables it refers to.** What is no reference is kept as it is; `fuel` is
at least the length. -/
def expandReferencesFrom (known : List Binding) : (fuel : Nat) → Text → Text
  | 0, t => t
  | _, [] => []
  | fuel + 1, '$' :: '\x7b' :: t =>
    let name := t.takeWhile fun c => c != '\x7d' && c != ':'
    match t.drop name.length with
    | '\x7d' :: rest => valueOr known name [] ++ expandReferencesFrom known fuel rest
    | ':' :: '-' :: rest =>
      let default := rest.takeWhile (· != '\x7d')
      match rest.drop default.length with
      -- the default is taken as it is written: references in it are not expanded
      | _ :: rest => valueOr known name default ++ expandReferencesFrom known fuel rest
      | [] => '$' :: '\x7b' :: expandReferencesFrom known fuel t
    | _ => '$' :: '\x7b' :: expandReferencesFrom known fuel t
  | fuel + 1, c :: t => c :: expandReferencesFrom known fuel t

/-- The value with the variables it refers to, given those that are known, the latest first. -/
def expandReferences (known : List Binding) (value : Text) : Text :=
  expandReferencesFrom known value.length value

/-- Gives a variable a value. It keeps its place among the others. -/
def assign (name : Text) (value : Option Text) : List Binding → List Binding
  | [] => [(name, value)]
  | (n, v) :: bindings =>
    if n = name then (n, value) :: bindings else (n, v) :: assign name value bindings

/-- The variables after more lines, each of which can refer to those before it, and to the
environment. -/
def assignAll (environment : List Binding) (assigned : List Binding) :
    List Binding → List Binding
  | [] => assigned
  | (name, value) :: bindings =>
    let value := value.map (expandReferences (assigned ++ environment))
    assignAll environment (assign name value assigned) bindings

/-- **The variables of a file**, in the order in which they are first given, each with the value
that is given last. -/
def assignments (environment : List Binding) (content : Text) : List Binding :=
  assignAll environment [] (bindings content)

theorem lookup_assign_self (name : Text) (value : Option Text) (bindings : List Binding) :
    (assign name value bindings).lookup name = some value := by
  induction bindings with
  | nil => simp [assign]
  | cons first bindings ih =>
    obtain ⟨n, v⟩ := first
    unfold assign
    split
    · rename_i h; simp [h]
    · rename_i h
      have : (name == n) = false := by simpa using Ne.symm h
      simp [List.lookup_cons, this, ih]

end EnvironmentFile

end SectionIndex
