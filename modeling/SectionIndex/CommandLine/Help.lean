import SectionIndex.CommandLine.Arguments
import SectionIndex.Service.Rpc

/-!
# Help

What the program says of its own use, and what it says when nothing is done.
-/

namespace SectionIndex

/-- **What a run of the program gives:** its exit code and what it prints. -/
structure Output where
  code : Nat := 0
  text : Text := []
  errors : Text := []
  deriving DecidableEq, Repr

/-- The name of the program. -/
def programName : Text := "ai-index"

/-- The lines as a text, each with its end. -/
def ofLines (lines : List String) : Text :=
  lines.flatMap fun line => line.toList ++ ['\n']

/-- **How the program is used**, in short. -/
def usageText : Text :=
  ofLines
    ["usage: ai-index [-h] [--verify | --remove] [--reindex] [--min-lines N] [-v]",
     "                [--version]",
     "                [FILE ...]"]

/-- **How the program is used.** -/
def helpText : Text :=
  usageText ++ ofLines
    ["",
     "AI-Index - add a section index to source files so agents read only what they need",
     "",
     "positional arguments:",
     "  FILE           Files or glob patterns",
     "",
     "options:",
     "  -h, --help     show this help message and exit",
     "  --verify       Check that the stored index is up to date",
     "  --remove       Remove the index block",
     "  --reindex      Update an existing index (same as the default)",
     "  --min-lines N  Only index files with N+ lines",
     "  -v, --verbose  Debug logging on stderr",
     "  --version      show program's version number and exit",
     "",
     "Region markers:",
     "  TypeScript/JS:  //#region name - Description   ...  //#endregion",
     "  Python:         # region: name - Description   ...  # endregion",
     "  Rust/Go:        // region: name - Description  ...  // endregion",
     "  C#:             #region name - Description     ...  #endregion",
     "",
     "Examples:",
     "  ai-index src/stores/projectStore.ts",
     "  ai-index \"src/**/*.py\" --min-lines 200",
     "  ai-index src/lib.rs --verify",
     "        "]

/-- **What is said when nothing is done.** -/
def Ending.output : Ending → Output
  | .help => { text := helpText }
  | .version => { text := programName ++ ' ' :: Rpc.version ++ ['\n'] }
  | .misuse fault =>
    { code := 2
      errors := usageText ++ programName ++ ": error: " ++ fault.message ++ ['\n'] }

end SectionIndex
