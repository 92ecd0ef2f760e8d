import ChainGenesis.Cli.Run

/-!
# The program

Reads what a command line needs from the disk, the environment and the standard input, runs
it, and then writes what has changed. All decisions are made in `Cli.run`.
-/

namespace ChainGenesis.Program

/-- Adds what is on the disk at a path, and the directories above it. -/
def addPath (files : FileSystem) (path : String) : IO FileSystem := do
  let directory ← IO.currentDir
  let names := FilePath.names ((FilePath.absolute? directory.toString path).getD "")
  let mut files := files
  let mut place : Location := []
  for name in names do
    place := if name = ['.', '.'] then place.dropLast else place ++ [String.ofList name]
    let there := directory / place.foldl FilePath.join "/"
    if (files.node? place).isNone then
      if ← there.isDir then files := files.put place .directory
      else if ← there.pathExists then
        files := files.put place (.file (← IO.FS.readBinFile there))
  return files

/-- The part of the disk that a command looks at. A file can refer to another, so what is
known is looked at once more. -/
def filesFor (command : Cli.Command) : IO FileSystem := do
  let directory ← IO.currentDir
  let mut files := FileSystem.empty ((FilePath.names directory.toString).map String.ofList)
  for _ in [1, 2] do
    for path in command.paths files do
      files ← addPath files path
  return files

/-- Whether a file with this content is at a place. -/
def hasContent (files : FileSystem) (place : Location) (content : ByteArray) : Bool :=
  match files.node? place with
  | some (.file old) => old.toList = content.toList
  | _ => false

/-- Writes what has changed, the directories before what is in them. -/
def store (before after : FileSystem) : IO Unit := do
  for (place, node) in after.nodes.reverse do
    let there := place.foldl FilePath.join "/"
    match node with
    | .directory => if (before.node? place).isNone then IO.FS.createDirAll there
    | .file content =>
      if !hasContent before place content then IO.FS.writeBinFile there content

/-- Reads the standard input to its end. -/
partial def readAll (input : IO.FS.Stream) (start : ByteArray) : IO ByteArray := do
  let bytes ← input.read 65536
  if bytes.isEmpty then return start
  readAll input (start ++ bytes)

/-- The variables of the environment that are set. -/
def readVariables : IO Cli.Variables :=
  Cli.variableNames.filterMapM fun name => do
    return (← IO.getEnv name).map fun value => (name, value)

/-- Runs a command line on the disk, and gives its code. -/
def run (arguments : List String) : IO UInt32 := do
  let vars ← readVariables
  let command := (Cli.Command.parse vars arguments).toOption
  let files ← (command.map filesFor).getD (pure (FileSystem.empty []))
  let piped ←
    if command.any Cli.Command.readsInput then readAll (← IO.getStdin) .empty else pure .empty
  let outcome := Cli.run .plain files vars piped arguments
  store files outcome.files
  IO.print outcome.output
  for complaint in outcome.complaints do
    IO.eprintln complaint
  return outcome.code.toUInt32

end ChainGenesis.Program

/-- Runs the command line. -/
def main (arguments : List String) : IO UInt32 := ChainGenesis.Program.run arguments
