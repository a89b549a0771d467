import SectionIndex.Json.Value
import SectionIndex.Text.Numeral
import SectionIndex.Text.Utf8

/-!
# Faults

Everything that can go wrong, by its cause. The words for a cause are in `Fault.message` alone.
-/

namespace SectionIndex

/-- Why a file cannot be read. -/
inductive Fault.ReadReason
  | notFound
  | notAFile
  | notReadable (cause : Utf8Fault)
  deriving DecidableEq, Repr

/-- **What can go wrong.** -/
inductive Fault
  /-- The file cannot be read as text. -/
  | unreadable (path : Text) (reason : Fault.ReadReason)
  /-- No language has the file's extension. -/
  | unsupported (path : Text)
  /-- The path leads out of the workspace. -/
  | outsideWorkspace (path root : Text)
  /-- The index has no section of this name. -/
  | sectionNotFound (name : Text) (available : List Text)
  /-- The text is no numeral. -/
  | notANumber (text : Text)
  /-- A numeral that is read or would be written has too many digits; how many is told of one that
  is read. -/
  | numberTooLong (digits : Option Nat)
  /-- A bracket of a message stands inside too many others. -/
  | tooDeep (bracket : Json.Bracket)
  /-- A bracket of a reply would stand inside too many others. -/
  | tooDeepToWrite
  /-- No block style has this name. -/
  | unknownStyle (label : Text)
  /-- A least number of lines was left blank, so it cannot be compared with one. -/
  | limitNotComparable
  /-- A text was given for a log level, and it is none. -/
  | unknownLevel (text : Text)
  /-- A part of the log was given for a log level. -/
  | notALevel (description : Text)
  /-- The date leaves the calendar when it is converted to universal time. -/
  | dateOutOfRange
  /-- A path that is looked up holds the null character. -/
  | nullInPath
  /-- A name on the path is too long for the file system. -/
  | nameTooLong (path : Text)
  /-- Nobody has the home directory that the path starts from. -/
  | homeless
  /-- The links on the path lead back to themselves. -/
  | linkLoop (path : Text)
  deriving DecidableEq, Repr

namespace Fault

/-- The short word for why a file cannot be read. -/
def ReadReason.label : ReadReason → Text
  | .notFound => "not-found"
  | .notAFile => "not-a-file"
  | .notReadable _ => "not-readable"

/-- The words of a read fault after the short one. -/
def ReadReason.detail : ReadReason → Text
  | .notReadable cause => " (" ++ cause.message ++ ")"
  | _ => []

/-- What a bracket stands around. -/
def bracketContent : Json.Bracket → Text
  | .square => "array"
  | .curly => "object"

/-- The words of a message for how many digits a numeral has, if that is told. -/
def digitsTold : Option Nat → Text
  | some digits => ": value has " ++ Text.ofNat digits ++ " digits"
  | none => []

/-- The longest quotation in the message of a text that is no numeral. -/
def quotationLimit : Nat := 200

/-- **The message for a fault.** -/
def message : Fault → Text
  | .unreadable path reason => "Cannot read " ++ path ++ ": " ++ reason.label ++ reason.detail
  | .unsupported path => "Unsupported file type: " ++ path
  | .outsideWorkspace path root => "Path " ++ path ++ " is outside the workspace root " ++ root
  | .sectionNotFound name _ => "Section \"" ++ name ++ "\" not found"
  | .notANumber text =>
    "invalid literal for int() with base 10: " ++ text.quoted.take quotationLimit
  | .numberTooLong digits =>
    "Exceeds the limit (" ++ Text.ofNat maxDigits ++ " digits) for integer string conversion" ++
      digitsTold digits ++ "; use sys.set_int_max_str_digits() to increase the limit"
  | .tooDeep bracket =>
    "maximum recursion depth exceeded while decoding a JSON " ++ bracketContent bracket ++
      " from a unicode string"
  | .tooDeepToWrite => "maximum recursion depth exceeded while encoding a JSON object"
  | .unknownStyle label => label.quoted ++ " is not a valid BlockStyle"
  | .limitNotComparable => "'<' not supported between instances of 'list' and 'int'"
  | .unknownLevel text => "Unknown level: " ++ text.quoted
  | .notALevel description => "Level not an integer or a valid string: " ++ description
  | .dateOutOfRange => "date value out of range"
  | .nullInPath => "embedded null byte"
  | .nameTooLong path => "[Errno 36] File name too long: " ++ path.quoted
  | .homeless => "Could not determine home directory."
  | .linkLoop path => "Symlink loop from " ++ path.quoted

/-- The fault of a text that is read as a number. -/
def ofNumeral (text : Text) : NumeralFault → Fault
  | .malformed => .notANumber text
  | .tooLong digits => .numberTooLong (some digits)

/-- **Steps that can fail**, one after the other, give a result only if each of them does. -/
theorem bind_eq_ok_iff {α β : Type} {step : Except Fault α} {next : α → Except Fault β} {b : β} :
    (step >>= next) = .ok b ↔ ∃ a, step = .ok a ∧ next a = .ok b := by
  cases step with
  | error fault => exact ⟨(nomatch ·), fun ⟨_, h, _⟩ => nomatch h⟩
  | ok a => exact ⟨fun h => ⟨a, rfl, h⟩, fun ⟨_, h, hnext⟩ => by cases h; exact hnext⟩

/-- **What is made of a result** is there only if the result is. -/
theorem map_eq_ok_iff {α β : Type} {result : Except Fault α} {f : α → β} {b : β} :
    result.map f = .ok b ↔ ∃ a, result = .ok a ∧ f a = b := by
  cases result with
  | error fault => exact ⟨(nomatch ·), fun ⟨_, h, _⟩ => nomatch h⟩
  | ok a =>
    refine ⟨fun h => ⟨a, rfl, Except.ok.inj h⟩, ?_⟩
    rintro ⟨_, ⟨⟩, rfl⟩
    rfl

/-- A result of which something is known is there. -/
theorem toOption_map_eq_some_iff {α β : Type} {result : Except Fault α} {f : α → β} {b : β} :
    result.toOption.map f = some b ↔ ∃ a, result = .ok a ∧ f a = b := by
  rw [← map_eq_ok_iff]
  cases result with
  | error fault => exact iff_of_false (nomatch ·) (nomatch ·)
  | ok a => exact ⟨fun h => congrArg _ (Option.some.inj h), fun h => congrArg _ (Except.ok.inj h)⟩

end Fault

/-- Reads a number, or says what is wrong with it. -/
def readNumber (text : Text) : Except Fault Int :=
  (readInt text).mapError (Fault.ofNumeral text)

end SectionIndex
