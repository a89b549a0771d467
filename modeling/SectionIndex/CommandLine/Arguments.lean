import SectionIndex.CommandLine.Switch
import SectionIndex.Text.Numeral

/-!
# Arguments

What the words of a command line ask for. A word is first looked at by itself: a switch, perhaps
with a value, or an operand. Only one row of operands is taken, the first one. Help and version are
asked for at once: what comes after them does not count.

## Main definitions

* `Word`, `Word.ofText` — a word by itself.
* `Arguments`, `Arguments.parse` — what the words ask for together.
-/

namespace SectionIndex

/-- **The value in the word of a switch:** none, one that is assigned to its name, or what follows
its letter, with an equals sign between them or not. -/
inductive Attached
  | nothing
  | assigned (value : Text)
  | letters (value : Text)
  deriving DecidableEq, Repr

/-- **A word of the command line.** -/
inductive Word
  | operand (text : Text)
  | separator
  | switch (s : Switch) (value : Attached)
  | unknown (text : Text)
  deriving DecidableEq, Repr

namespace Word

/-- The word names its switch by a single letter. -/
def isShort (word : Text) : Bool :=
  match word with
  | '-' :: c :: _ => c != '-'
  | _ => false

/-- All that the word holds before an equals sign, and the value after it. -/
def splitEquals (word : Text) : Text × Attached :=
  match word.dropWhile (· != '=') with
  | [] => (word, .nothing)
  | _ :: value =>
    (word.takeWhile (· != '='), if isShort word then .letters value else .assigned value)

/-- Digits, at least one. -/
def isDigits (t : Text) : Bool :=
  !t.isEmpty && t.all isDecimal

/-- The word looks like a negative number: a dash, digits, and perhaps a point and more digits, of
which there may be only the latter. One line feed may follow. -/
def isNegativeNumber (word : Text) : Bool :=
  match word with
  | '-' :: number =>
    -- a line feed at the end does not count, and only one of them
    let number := if number.getLast? = some '\n' then number.dropLast else number
    isDigits number ||
      match number.dropWhile isDecimal with
      | '.' :: fraction => isDigits fraction
      | _ => false
  | _ => false

/-- A word that starts with a dash and is no spelling, nor could be one that is cut short. Numbers
and words with a space are operands. -/
def ofStranger (word : Text) : Word :=
  if isNegativeNumber word || word.contains ' ' then .operand word else .unknown word

/-- A word of two dashes and more: a spelling may be cut short as long as it is the only one. -/
def ofLong (word : Text) : Except Misuse Word :=
  let (start, value) := splitEquals word
  match Switch.completions start with
  | [] => .ok (ofStranger word)
  | [(_, s)] => .ok (.switch s value)
  | candidates => .error (.ambiguous word (candidates.map Prod.fst))

/-- A word of one dash, a letter and more: what follows the letter is the value. -/
def ofShort (word : Text) : Word :=
  match Switch.ofSpelling? (word.take 2) with
  | some s => .switch s (.letters (word.drop 2))
  | none => ofStranger word

/-- **Reads a word** by itself. -/
def ofText (word : Text) : Except Misuse Word :=
  match word, Switch.ofSpelling? word, Switch.ofSpelling? (splitEquals word).1 with
  -- a whole spelling wins over every other reading of the word
  | _, some s, _ => .ok (.switch s .nothing)
  | ['-'], _, _ => .ok (.operand word)
  | '-' :: _, _, some s => .ok (.switch s (splitEquals word).2)
  | '-' :: '-' :: _, _, none => ofLong word
  | '-' :: _, _, none => .ok (ofShort word)
  | _, _, _ => .ok (.operand word)

/-- **Reads all words.** After two dashes that stand alone all words are operands. -/
def ofTexts : List Text → Except Misuse (List Word)
  | [] => .ok []
  | ['-', '-'] :: words => .ok (.separator :: words.map .operand)
  | word :: words => do
    let first ← ofText word
    let rest ← ofTexts words
    return first :: rest

/-- The switch `s` and those whose letters follow its own. Each of the letters must name a
switch. -/
def cluster (s : Switch) : Text → Except Misuse (List Switch)
  | [] => .ok [s]
  | c :: letters =>
    match Switch.ofSpelling? ['-', c] with
    | none => .error (.valueIgnored s (c :: letters))
    | some next => (cluster next letters).map (s :: ·)

/-- The switches that stand in one word together, none of which takes a value. Only what follows a
letter is read as more of them, and there is something to read. -/
def switches (s : Switch) : Attached → Except Misuse (List Switch)
  | .nothing => .ok [s]
  | .assigned value => .error (.valueIgnored s value)
  | .letters [] => .error (.valueIgnored s [])
  | .letters letters => cluster s letters

end Word

/-- What is done with the files. -/
inductive Task
  | generate
  | verify
  | remove
  deriving DecidableEq, Repr

/-- **The least number of lines that is asked for.** Two dashes in place of the number leave the
switch with a value that is blank, which only shows when it is used. -/
inductive LineLimit
  | lines (n : Int)
  | blank
  deriving DecidableEq, Repr

/-- The number of lines, unless it is left blank. -/
def LineLimit.number? : LineLimit → Option Int
  | .lines n => some n
  | .blank => none

/-- **What a command line asks for.** -/
structure Arguments where
  files : List Text := []
  task : Task := .generate
  reindex : Bool := false
  minLines : Option LineLimit := none
  verbose : Bool := false
  deriving DecidableEq, Repr

/-- **Why nothing is done:** help or the version is asked for, or the switches are misused. -/
inductive Ending
  | help
  | version
  | misuse (fault : Misuse)
  deriving DecidableEq, Repr

namespace Arguments

/-- Which operands have been seen: none yet, those of the row that is being read, or all of it. -/
inductive Row
  | awaited
  | reading
  | closed
  deriving DecidableEq, Repr

/-- What the words so far ask for, and those of them that ask for nothing. -/
structure State where
  arguments : Arguments := {}
  row : Row := .awaited
  strangers : List Text := []
  deriving DecidableEq, Repr

/-- An operand is a file as long as the row is not closed. -/
def State.takeOperand (state : State) (operand : Text) : State :=
  if state.row = .closed then { state with strangers := state.strangers ++ [operand] }
  else
    { state with
      row := .reading
      arguments :=
        { state.arguments with files := state.arguments.files ++ [operand] } }

/-- Two dashes that stand alone belong to a row and mean nothing in it. -/
def State.takeSeparator (state : State) : State :=
  if state.row = .closed then { state with strangers := state.strangers ++ [['-', '-']] }
  else { state with row := .reading }

/-- A switch closes the row that is being read. -/
def State.closeRow (state : State) : State :=
  { state with row := if state.row = .awaited then .awaited else .closed }

/-- The arguments with another task, which must be the only one. -/
def setTask (arguments : Arguments) (task : Task) (s other : Switch) (otherTask : Task) :
    Except Ending Arguments :=
  if arguments.task = otherTask then .error (.misuse (.conflict s other))
  else .ok { arguments with task := task }

/-- What a switch without a value asks for. -/
def apply (arguments : Arguments) : Switch → Except Ending Arguments
  | .help => .error .help
  | .version => .error .version
  | .verify => arguments.setTask .verify .verify .remove .remove
  | .remove => arguments.setTask .remove .remove .verify .verify
  | .reindex => .ok { arguments with reindex := true }
  | .verbose => .ok { arguments with verbose := true }
  | .minLines => .error (.misuse (.valueMissing .minLines))

/-- What a least number of lines asks for. -/
def setMinLines (arguments : Arguments) (value : Text) : Except Ending Arguments :=
  if value = ['-', '-'] then .ok { arguments with minLines := some .blank }
  else
    match readInt value with
    | .ok n => .ok { arguments with minLines := some (.lines n) }
    | .error _ => .error (.misuse (.valueNotNumber .minLines value))

/-- What the switches of one word ask for. -/
def State.takeCluster (state : State) (s : Switch) (value : Attached) : Except Ending State := do
  let switches ← (Word.switches s value).mapError .misuse
  let arguments ← switches.foldlM Arguments.apply state.arguments
  return { state.closeRow with arguments := arguments }

/-- The state with a least number of lines. -/
def State.takeMinLines (state : State) (value : Text) : Except Ending State := do
  let arguments ← state.arguments.setMinLines value
  return { state.closeRow with arguments := arguments }

/-- What the words ask for. -/
def take : State → List Word → Except Ending State
  | state, [] => .ok state
  | state, .operand text :: words => take (state.takeOperand text) words
  | state, .separator :: words => take state.takeSeparator words
  | state, .unknown text :: words =>
    take { state.closeRow with strangers := state.strangers ++ [text] } words
  | state, .switch .minLines (.assigned value) :: words => do
    take (← state.takeMinLines value) words
  -- the only switch that takes the next word too, unless that is a switch or a lone separator
  | state, .switch .minLines .nothing :: .operand value :: words => do
    take (← state.takeMinLines value) words
  | state, .switch s value :: words => do
    take (← state.takeCluster s value) words

/-- **What a command line asks for**, or why nothing is done. -/
def parse (words : List Text) : Except Ending Arguments := do
  let words ← (Word.ofTexts words).mapError .misuse
  let state ← take {} words
  -- help, the version and misused switches have ended the reading by now, so strangers come last
  if state.strangers = [] then return state.arguments
  else throw (.misuse (.unrecognized state.strangers))

end Arguments

end SectionIndex
