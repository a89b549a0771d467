import SectionIndex.Files.Resolve
import SectionIndex.Time.Moment

/-!
# Settings

What can be set, and the limits it puts on requests: a request may read files of the workspace
only.

## Main definitions

* `Settings`, `Context`.
* `Context.resolvePath` — the path to a requested file, which must be in the workspace.
-/

namespace SectionIndex

/-- **The settings.** -/
structure Settings where
  debug : Bool := false
  logLevel : Text := "INFO"
  bindAddress : Text := "127.0.0.1"
  bindPort : Int := 8765
  corsAllowedOrigins : Text := []
  workspaceRoot : Path
  driftTolerance : Int := 5
  minLines : Int := 0
  serverName : Text := "ai-index"
  protocolVersion : Text := "2024-11-05"
  deriving DecidableEq, Repr

/-- The origins that browsers may ask from. -/
def Settings.corsOrigins (settings : Settings) : List Text :=
  ((settings.corsAllowedOrigins.splitOn ',').map Text.strip).filter (· ≠ [])

/-- **Where and when something is done:** the host, the settings and the clock. -/
structure Context where
  host : Host
  settings : Settings
  now : Moment
  deriving DecidableEq, Repr

namespace Context

/-- The clock reading in universal time. -/
def utcNow (context : Context) : Except Fault Moment :=
  context.now.utc?.elim (.error .dateOutOfRange) .ok

theorem utcNow_eq_ok_iff {context : Context} {moment : Moment} :
    context.utcNow = .ok moment ↔ context.now.utc? = some moment := by
  unfold utcNow
  cases context.now.utc? with
  | none => exact iff_of_false (nomatch ·) (nomatch ·)
  | some m =>
    exact ⟨fun h => congrArg some (Except.ok.inj h), fun h => congrArg _ (Option.some.inj h)⟩

/-- The path to the workspace. -/
def workspace (context : Context) : Except Fault Path := do
  context.host.resolve (← context.host.expandHome context.settings.workspaceRoot)

/-- **The path to a requested file.** Relative paths are seen from the workspace, and links and
double dots are resolved before the path is compared with the workspace. -/
def resolvePath (context : Context) (file : Text) : Except Fault Path := do
  let root ← context.workspace
  let path ← context.host.expandHome (Path.ofText file)
  let path ← context.host.resolve (root.under path)
  if root.isWithin path then return path
  else .error (.outsideWorkspace file root.toText)

end Context

end SectionIndex
