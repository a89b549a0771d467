import SectionIndex.Json.Loose
import SectionIndex.Json.Printer
import SectionIndex.Service.Payload
import SectionIndex.Upkeep.Verify

/-!
# Tools

The questions that agents can ask about files of the workspace. A tool only reads. What goes wrong
with the file asked about is part of the answer; anything else is a fault.

## Main definitions

* `Tool`, `Tool.definition` — the tools and how they are announced.
* `ToolResult`, `Tool.call` — the answer to a question.
-/

namespace SectionIndex

/-- **The tools.** -/
inductive Tool
  | getFileIndex
  | readSection
  | verifyIndex
  deriving DecidableEq, Repr

namespace Tool

/-- All tools, in the order in which they are announced. -/
def all : List Tool :=
  [.getFileIndex, .readSection, .verifyIndex]

/-- The name of a tool. -/
def label : Tool → Text
  | .getFileIndex => "get_file_index"
  | .readSection => "read_section"
  | .verifyIndex => "verify_index"

/-- The tool of a name. -/
def ofLabel? (name : Text) : Option Tool :=
  all.find? (·.label == name)

@[simp] theorem ofLabel?_label (tool : Tool) : ofLabel? tool.label = some tool := by
  cases tool <;> rfl

/-- The parameter that names the file. -/
def fileParameter : Text := "file_path"

/-- The parameter that names the section. -/
def sectionParameter : Text := "section_name"

/-- The parameters of a tool, all of which are needed. -/
def parameters : Tool → List Text
  | .readSection => [fileParameter, sectionParameter]
  | _ => [fileParameter]

/-- What a tool does. -/
def summary : Tool → Text
  | .getFileIndex =>
    "Get section index of a file. Returns list of sections with line numbers. " ++
      "Use before reading large files to find relevant sections."
  | .readSection =>
    "Read a specific section of a file by name. More efficient than reading the entire file."
  | .verifyIndex =>
    "Check whether the index embedded in a file still matches its region markers. " ++
      "Reports missing sections, out-of-range lines and line drift. Does not modify the file."

/-- What a parameter means. -/
def parameterSummary (tool : Tool) (parameter : Text) : Text :=
  if parameter = sectionParameter then "Name of the section to read"
  else
    match tool with
    | .getFileIndex => "Path to the file to index"
    | .readSection => "Path to the file"
    | .verifyIndex => "Path to the file to verify"

/-- **How a tool is announced:** its name, what it does, and its parameters. -/
def definition (tool : Tool) : Json :=
  let property (parameter : Text) : Points × Json :=
    (parameter, .obj (Json.record
      [("type", .str "string"), ("description", .str (tool.parameterSummary parameter))]))
  .obj (Json.record
    [("name", .str tool.label),
     ("description", .str tool.summary),
     ("inputSchema", .obj (Json.record
       [("type", .str "object"),
        ("properties", .obj (tool.parameters.map property)),
        ("required", .arr (tool.parameters.map .text))]))])

end Tool

/-- **The answer of a tool:** the members of its payload, and estimates of what question and answer
cost. -/
structure ToolResult where
  payload : Json.Members
  inputTokens : Nat := 0
  outputTokens : Nat := 0
  deriving Repr

namespace ToolResult

/-- The member that says what went wrong. -/
def errorMember : Text := "error"

/-- The answer says that something went wrong. -/
def isError (result : ToolResult) : Bool :=
  result.payload.has errorMember

/-- The answer that something went wrong. -/
def failure (message : Text) : ToolResult where
  payload := [(errorMember, .str message)]

/-- The answer to a question. -/
def reply (question : Text) (payload : Json.Members) : ToolResult where
  payload := payload
  inputTokens := countTokens question
  outputTokens := countTokens (Json.obj payload).render

@[simp] theorem isError_failure (message : Text) : (failure message).isError = true := by
  simp [failure, isError, Json.Members.has, Json.Members.get?]

end ToolResult

/-- The fault is about the file that is asked about. -/
def Fault.isAboutFile : Fault → Bool
  | .unreadable _ _ | .unsupported _ | .outsideWorkspace _ _ | .sectionNotFound _ _ => true
  | _ => false

/-- The answer to a question, or what is wrong with the file as an answer. -/
def ToolResult.orFailure (question : Text) : Except Fault Json.Members →
    Except Fault ToolResult
  | .ok payload => .ok (.reply question payload)
  | .error fault =>
    if fault.isAboutFile then .ok (.failure fault.message) else .error fault

namespace Tool

/-- The value of a parameter: a text that is not empty. -/
def argument? (arguments : Json) (parameter : Text) : Option Text :=
  match arguments with
  | .obj members =>
    ((Json.Members.get? members parameter).bind Json.exactText?).filter fun value => value ≠ []
  | _ => none

/-- The parameters without a proper value. If the arguments are no object, nothing is said of
them. -/
def faultyParameters (tool : Tool) (arguments : Json) : List Text :=
  match arguments with
  | .obj _ => tool.parameters.filter fun parameter => (argument? arguments parameter).isNone
  | _ => []

/-- The answer to arguments without proper values. -/
def invalidArguments (tool : Tool) (arguments : Json) : ToolResult :=
  .failure (tool.label ++ ": missing or invalid parameter(s): " ++
    Text.join ", " (tool.faultyParameters arguments))

/-- The index of a requested file. -/
def fileIndexPayload (context : Context) (file : Text) : Except Fault Json.Members := do
  let path ← context.resolvePath file
  let index ← context.index path.toText
  return index.payload

/-- The text of a section of a requested file. -/
def sectionPayload (context : Context) (file name : Text) : Except Fault Json.Members := do
  let path ← context.resolvePath file
  let result ← context.readSection path.toText name
  return result.payload

/-- The check of a requested file. -/
def verifyPayload (context : Context) (file : Text) : Except Fault Json.Members := do
  let path ← context.resolvePath file
  let result ← context.verify path.toText context.settings.driftTolerance
  return result.payload

/-- **The answer of a tool** to arguments. -/
def call (context : Context) (tool : Tool) (arguments : Json) : Except Fault ToolResult :=
  match tool, argument? arguments fileParameter, argument? arguments sectionParameter with
  | .getFileIndex, some file, _ => ToolResult.orFailure file (fileIndexPayload context file)
  | .readSection, some file, some name =>
    ToolResult.orFailure (file ++ ' ' :: name) (sectionPayload context file name)
  | .verifyIndex, some file, _ => ToolResult.orFailure file (verifyPayload context file)
  | _, _, _ => .ok (tool.invalidArguments arguments)

end Tool

end SectionIndex
