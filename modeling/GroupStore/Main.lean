import GroupStore.Command.Disk
import Std.Time.DateTime.Timestamp

/-!
# The program

Takes the command line, the environment and the part of the disk that the command needs, runs the
command, and puts back what it has changed.  Result lines go to the output; events and the line
of a failure go to the error output.
-/

namespace GroupStore.Main

/-- How the program is called. -/
def usage : String :=
  "usage: (keys | get KEY | confirm EXCHANGE_ID | remove KEY | config validate) [--config PATH]"

/-- What the disk has at a place. -/
def nodeAt? (place : Place) : IO (Option Node) := do
  let path := (← IO.currentDir) / Files.pathOf place
  if ← path.isDir then return some .directory
  else if ← path.pathExists then return some (.ofContent (← IO.FS.readBinFile path))
  else return none

/-- Take a place of the disk into a file tree. -/
def take (files : Files) (place : Place) : IO Files := do
  if place = [] then return files
  match ← nodeAt? place with
  | some node => return files.put place node
  | none => return files

/-- Take everything on the way to some paths into a file tree. -/
def takeAll (files : Files) (paths : List String) : IO Files :=
  (paths.flatMap files.places).foldlM take files

/-- Put what stands at a place of a file tree onto the disk. -/
def put (place : Place) (node : Node) : IO Unit := do
  let path := (← IO.currentDir) / Files.pathOf place
  match node.content? with
  | some content => IO.FS.writeBinFile path content
  | none => IO.FS.createDirAll path

/-- The reading of the system's clock in milliseconds. -/
def now : IO Nat := do
  return (← Std.Time.Timestamp.now).toMillisecondsSinceUnixEpoch.val.toNat

/-- Print lines, up to the first that is refused: how many were printed then, and why. -/
def printAll (printed : Nat) : List String → IO (Option (Nat × String))
  | [] => return none
  | line :: rest => do
    match ← (IO.println line).toBaseIO with
    | .ok () => printAll (printed + 1) rest
    | .error e => return some (printed, toString e)

/-- Run a command on the disk.  A line that cannot be printed fails the command, which leaves the
same world then. -/
def run (c : Command) : IO UInt32 := do
  let environment ← IO.getEnv Config.pathVariable
  let time ← now
  let home := Path.components (← IO.currentDir).toString
  let files ← takeAll ⟨home, []⟩ (c.configPaths environment)
  let files ← takeAll files (c.storePaths environment files)
  let start := World.fresh time time files
  let (report, world) := c.run .reliable environment start
  for (place, node) in Files.changes files world.files do
    put place node
  let report := match ← printAll 0 report.lines with
    | none => report
    | some (count, text) => (c.run (.failingAfter count text) environment start).1
  for event in world.errorOutput.reverse do
    IO.eprint (event.line time)
  match report.failure with
  | some failure => IO.eprintln failure.message
  | none => pure ()
  return report.exitCode.toUInt32

end GroupStore.Main

/-- The program. -/
def main (arguments : List String) : IO UInt32 := do
  match GroupStore.Command.ofArguments? arguments with
  | some command => GroupStore.Main.run command
  | none =>
    IO.eprintln GroupStore.Main.usage
    return 2
