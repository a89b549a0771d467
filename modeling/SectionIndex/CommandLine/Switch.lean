import SectionIndex.Text.Printable

/-!
# Switches

The switches of the command line and how they are spelled, and what can be wrong with the use of
them.

## Main definitions

* `Switch`, `Switch.spellings`, `Switch.label`.
* `Misuse`, `Misuse.message`.
-/

namespace SectionIndex

/-- **The switches.** -/
inductive Switch
  | help
  | verify
  | remove
  | reindex
  | minLines
  | verbose
  | version
  deriving DecidableEq, Repr

namespace Switch

/-- All switches, in the order in which they are listed. -/
def all : List Switch :=
  [.help, .verify, .remove, .reindex, .minLines, .verbose, .version]

/-- **The spellings of a switch.** Those of one letter start with one dash, the others with two. -/
def spellings : Switch → List Text
  | .help => ["-h", "--help"]
  | .verify => ["--verify"]
  | .remove => ["--remove"]
  | .reindex => ["--reindex"]
  | .minLines => ["--min-lines"]
  | .verbose => ["-v", "--verbose"]
  | .version => ["--version"]

/-- The switch as it is named in messages: all its spellings. -/
def label (s : Switch) : Text :=
  Text.join "/" s.spellings

/-- All spellings, each with its switch. -/
def table : List (Text × Switch) :=
  all.flatMap fun s => s.spellings.map (·, s)

/-- The switch of a spelling. -/
def ofSpelling? (spelling : Text) : Option Switch :=
  table.lookup spelling

/-- The spellings that start like a text, each with its switch. -/
def completions (start : Text) : List (Text × Switch) :=
  table.filter fun (spelling, _) => start.isPrefixOf spelling

end Switch

/-- **What can be wrong with the use of switches.** -/
inductive Misuse
  /-- A spelling is cut so short that it could be one of several. -/
  | ambiguous (word : Text) (candidates : List Text)
  /-- The switch needs a value and has none. -/
  | valueMissing (s : Switch)
  /-- The switch takes no value and has one. -/
  | valueIgnored (s : Switch) (value : Text)
  /-- The value of the switch is no whole number. -/
  | valueNotNumber (s : Switch) (value : Text)
  /-- The switch cannot stand together with an earlier one. -/
  | conflict (s earlier : Switch)
  /-- Words that are neither switches nor files. -/
  | unrecognized (words : List Text)
  deriving DecidableEq, Repr

namespace Misuse

/-- A message about the use of one switch. -/
def about (s : Switch) (message : Text) : Text :=
  "argument " ++ s.label ++ ": " ++ message

/-- **The message for a misuse.** -/
def message : Misuse → Text
  | .ambiguous word candidates =>
    "ambiguous option: " ++ word ++ " could match " ++ Text.join ", " candidates
  | .valueMissing s => about s "expected one argument"
  | .valueIgnored s value => about s ("ignored explicit argument " ++ value.quoted)
  | .valueNotNumber s value => about s ("invalid int value: " ++ value.quoted)
  | .conflict s earlier => about s ("not allowed with argument " ++ earlier.label)
  | .unrecognized words => "unrecognized arguments: " ++ Text.join " " words

end Misuse

end SectionIndex
