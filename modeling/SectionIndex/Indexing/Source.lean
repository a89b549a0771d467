import SectionIndex.Companion.Document
import SectionIndex.Files.Lookup

/-!
# Files as texts

The text of a file and the companion document that belongs to it. Every file that is there can be
opened: only its bytes can be a reason that it cannot be read.

## Main definitions

* `Host.loadFile` — the text of a file.
* `Host.locateCompanion`, `Host.readCompanion` — its companion document.
-/

namespace SectionIndex

namespace Host

/-- **The text of a file**, with its line ends as they are. A file that is there can be opened. -/
def loadFile (host : Host) (file : Text) : Except Fault Text := do
  match ← host.find (Path.ofText file) with
  | none => .error (.unreadable file .notFound)
  | some (_, .file bytes) =>
    (decodeUtf8 bytes).mapError fun cause => .unreadable file (.notReadable cause)
  | some _ => .error (.unreadable file .notAFile)

/-- The first of the paths at whose end there is a file. -/
def firstFile (host : Host) : List Path → Except Fault (Option Path)
  | [] => .ok none
  | path :: paths => do
    if ← host.isFile path then return some path else host.firstFile paths

/-- **The path of the companion document of a file**, if it has one. -/
def locateCompanion (host : Host) (file : Text) : Except Fault (Option Path) :=
  host.firstFile (Companion.candidates (Path.ofText file))

/-- **Reads a companion document.** It is none if there is no such file, if it is not text, or if
it says nothing. -/
def readCompanion (host : Host) (file : Text) : Except Fault (Option Companion) :=
  if '\x00' ∈ file then .error .nullInPath
  else
    match host.lookup (Path.ofText file) with
    | .found _ (.file bytes) =>
      match decodeUtf8 bytes with
      | .ok text => Companion.parse (Text.normalizeNewlines text) file
      | .error _ => .ok none
    | _ => .ok none

/-- The companion document of a file, if it has one that says something. -/
def companionOf (host : Host) (file : Text) : Except Fault (Option Companion) := do
  match ← host.locateCompanion file with
  | some path => host.readCompanion path.toText
  | none => return none

end Host

end SectionIndex
