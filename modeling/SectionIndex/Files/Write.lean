import SectionIndex.Files.Resolve

/-!
# Writing files

To write a file is to put other bytes at its location. It cannot fail: there is always room, every
file may be written, and every text has bytes, so a file is never left empty or half written. A
failure of the disk is outside of what is said here.

## Main definitions

* `Host.put`, `Host.overwrite` — another entry at a location, another text in the file at a path.
* `Host.store`, `Host.erase` — an entry is made, with the directories on the way, or taken away.
-/

namespace SectionIndex

namespace Host

/-- The host with an entry put at a location. -/
def put (host : Host) (place : Location) (entry : Entry) : Host :=
  { host with tree := host.tree.put place entry }

/-- **The host with a new text in the file at the end of a path.** Links are followed, and nothing
is written where there is no file yet. The write itself cannot fail. -/
def overwrite (host : Host) (path : Path) (content : Text) : Host :=
  match host.lookup path with
  | .found place (.file _) => host.put place (.file (encodeUtf8 content))
  | _ => host

/-- **The host with an entry at a path**, and with the directories on the way to it. A file goes
where the links on its path lead, a link stands at the path itself. -/
def store (host : Host) (path : Path) (entry : Entry) : Except Fault Host := do
  let directory ← host.resolve path.parent
  let place ←
    match entry with
    | .link _ => pure (directory.child path.name)
    | _ => host.resolve path
  let tree := host.tree.putDirectories place.names.dropLast
  return { host with tree := tree.put place.names entry }

/-- The host without what stands at a path. -/
def erase (host : Host) (path : Path) : Except Fault Host := do
  let directory ← host.resolve path.parent
  return { host with tree := host.tree.delete (directory.child path.name).names }

/-- The host after an operation that may give the file a new text. -/
def overwriteIf (host : Host) (path : Path) (content : Option Text) : Host :=
  content.elim host (host.overwrite path)

@[simp] theorem overwriteIf_none (host : Host) (path : Path) :
    host.overwriteIf path none = host := rfl

@[simp] theorem overwrite_workingDirectory (host : Host) (path : Path) (content : Text) :
    (host.overwrite path content).workingDirectory = host.workingDirectory := by
  unfold overwrite; split <;> rfl

end Host

end SectionIndex
