import SectionIndex.CommandLine.Glob
import SectionIndex.CommandLine.Help
import SectionIndex.CommandLine.Report
import SectionIndex.Files.Write
import SectionIndex.Upkeep.Generate
import SectionIndex.Upkeep.Verify

/-!
# Running a command line

The files of a command line are handled one after another, and a fault with one of them does not
stop the others. What is printed is a text that is always taken: a terminal that cannot show a
character of a name, or an output that was closed, is not among the faults.

## Main definitions

* `Context.perform` — one file.
* `Context.execute` — what a command line asks for.
* `Context.run` — a command line.
-/

namespace SectionIndex

/-- How many files came to each status. -/
structure Summary where
  success : Nat := 0
  skipped : Nat := 0
  failed : Nat := 0
  deriving DecidableEq, Repr

/-- The summary with one more file. -/
def Summary.record (summary : Summary) : Status → Summary
  | .success => { summary with success := summary.success + 1 }
  | .skipped => { summary with skipped := summary.skipped + 1 }
  | .failed => { summary with failed := summary.failed + 1 }

/-- The summary as a line. -/
def Summary.report (summary : Summary) : Text :=
  "   Done: " ++ Text.ofNat summary.success ++ " success, " ++ Text.ofNat summary.skipped ++
    " skipped, " ++ Text.ofNat summary.failed ++ " failed"

/-- What came of one file: the status, the lines that say so, and the new text if it gets one. -/
structure FileOutcome where
  status : Status
  report : Text
  content : Option Text := none
  deriving DecidableEq, Repr

namespace Context

/-- What comes of one file, or a fault. -/
def perform (context : Context) (arguments : Arguments) (file : Text) :
    Except Fault FileOutcome :=
  match arguments.task with
  | .verify => (context.verify file none).map fun result => ⟨result.status, result.report, none⟩
  | .remove =>
    (context.remove file).map fun (result, content) => ⟨result.status, result.report, content⟩
  | .generate =>
    (context.generate file (arguments.minLines.bind LineLimit.number?)).map fun (result, content) =>
      ⟨result.status, result.report, content⟩

/-- What comes of one file; a fault is a failure. -/
def outcomeOf (context : Context) (arguments : Arguments) (file : Text) : FileOutcome :=
  match context.perform arguments file with
  | .ok outcome => outcome
  | .error fault => ⟨.failed, statusLine file .failed fault.message, none⟩

/-- Handles files one after another: the lines about them, and how many came to each status. Neither
the writes nor the prints can fail, so every file has its turn. -/
def performAll (context : Context) (arguments : Arguments) (summary : Summary) :
    List Path → Text × Summary × Host
  | [] => ([], summary, context.host)
  | path :: paths =>
    let outcome := context.outcomeOf arguments path.toText
    -- the files that follow are read as this one leaves them
    let host := context.host.overwriteIf path outcome.content
    let (text, summary, host) :=
      performAll { context with host := host } arguments (summary.record outcome.status) paths
    (outcome.report ++ '\n' :: text, summary, host)

/-- Handles the files that were found. -/
def handle (context : Context) (arguments : Arguments) (files : List Path) : Output × Host :=
  if files = [] then ({ text := "   No files matched the pattern(s)\n" }, context.host)
  else
    let (text, summary, host) := context.performAll arguments {} files
    ({ code := if 0 < summary.failed then 1 else 0
       text :=
        "   Processing " ++ Text.ofNat files.length ++ " file(s)...\n\n" ++ text ++
          '\n' :: summary.report ++ "\n\n" },
     host)

/-- **Does what a command line asks for:** what is printed, and the files afterwards. -/
def execute (context : Context) (arguments : Arguments) : Except Fault (Output × Host) :=
  -- what is wrong with the arguments shows before any file is looked for
  if arguments.files = [] then
    .ok ({ code := 1, errors := "Error: No file pattern specified\n" }, context.host)
  else if arguments.minLines = some .blank then .error .limitNotComparable
  else if (arguments.minLines.bind LineLimit.number?).any (· < 0) then
    .ok ({ code := 1, errors := "Error: --min-lines must be >= 0\n" }, context.host)
  else do
    let (files, missing) ← context.host.expandPatterns arguments.files
    let notFound : Text := missing.flatMap fun argument =>
      "   ! File not found: " ++ argument ++ ['\n']
    let (output, host) := context.handle arguments files
    return ({ output with text := "\nAI-Index\n\n" ++ notFound ++ output.text }, host)

/-- **Runs a command line.** -/
def run (context : Context) (words : List Text) : Except Fault (Output × Host) :=
  match Arguments.parse words with
  | .error ending => .ok (ending.output, context.host)
  | .ok arguments => context.execute arguments

end Context

end SectionIndex
