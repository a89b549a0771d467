import SectionIndex.CommandLine.Run
import SectionIndex.Settings.Load
import Std.Time.DateTime.Timestamp

/-!
# The program

Reads the files that a command line names, together with their companion documents, runs the
command line on them, and writes back the files that it changed. Listing directories is left to the
shell, so a pattern in quotes is matched among the files that are named.
-/

namespace SectionIndex

namespace Program

/-- The microseconds from the start of year 1 to the start of 1970. -/
def epoch : Int :=
  Moment.daysBeforeYear 1970 * 86400000000

/-- The clock reading in universal time. -/
def readClock : IO Moment := do
  let stamp ← Std.Time.Timestamp.now
  return Moment.ofInstant (epoch + stamp.toNanosecondsSinceUnixEpoch.val / 1000).toNat

/-- The host with what the file system has at a path: a file, under its own name and as a link
under the one it was asked by, or something that is no file. -/
def load (host : Host) (path : Path) : IO Host := do
  let name := String.ofList path.toText
  let found : Except Fault Host ←
    try
      let bytes ← IO.FS.readBinFile name
      let target := (toString (← IO.FS.realPath name)).toList
      pure do
        let host ← host.store (Path.ofText target) (.file bytes.toList)
        let place ← host.resolve path
        if place.toText = target then return host
        -- there are links on the way, which this host knows nothing of
        else host.store path (.link target)
    catch
      | .noFileOrDirectory _ _ _ => pure (.ok host)
      | _ => pure (host.store path .directory)
  match found with
  | .ok host => return host
  | .error _ => return host

/-- A host with the files that a command line names, and the environment file. -/
def readHost (files : List Text) : IO Host := do
  let home := (← IO.getEnv "HOME").getD "/"
  let start := (Path.ofText (toString (← IO.currentDir)).toList).names
  let host : Host :=
    { tree := FileTree.putDirectories ⟨[]⟩ start, workingDirectory := start, home := home.toList }
  let named := files.map Path.ofText
  let paths := named.flatMap fun path => path :: Companion.candidates path
  (Path.ofText Host.environmentFileName :: paths).foldlM load host

/-- The variables that give settings. -/
def readEnvironment : IO (List (Text × Text)) :=
  settingNames.filterMapM fun name => do
    let key := upperCase (variableStart ++ name)
    return (← IO.getEnv (String.ofList key)).map fun value => (key, value.toList)

/-- Writes the files in which two trees differ. -/
def writeChanges (before after : FileTree) : IO Unit :=
  after.entries.forM fun (place, entry) => do
    match entry with
    | .file bytes =>
      if before.get? place = some entry then return
      else IO.FS.writeBinFile (String.ofList (Path.ofLocation place).toText) ⟨bytes.toArray⟩
    | _ => return

/-- Runs a command line and gives its exit code. -/
def run (words : List Text) : IO UInt32 := do
  let files :=
    match Arguments.parse words with
    | .ok arguments => arguments.files
    | .error _ => []
  let host ← readHost files
  match host.loadSettings [] (← readEnvironment) with
  | .error fault => refuse fault.message
  | .ok settings =>
    let context : Context := ⟨host, settings, ← readClock⟩
    match context.run words with
    | .error fault => refuse fault.message
    | .ok (output, after) =>
      writeChanges host.tree after.tree
      (← IO.getStdout).putStr (String.ofList output.text)
      (← IO.getStderr).putStr (String.ofList output.errors)
      return output.code.toUInt32
where
  /-- Says why nothing is done. -/
  refuse (message : Text) : IO UInt32 := do
    (← IO.getStderr).putStrLn (String.ofList message)
    return 1

end Program

end SectionIndex

/-- The program. -/
def main (words : List String) : IO UInt32 :=
  SectionIndex.Program.run (words.map String.toList)
