import LispDoc.CommandLine

/-!
# The program

Reads the files that a run looks at, runs it, writes the snapshot if it changed, and prints.
-/

namespace LispDoc

/-- A path and the paths of the directories on the way to it. -/
def pathChain (path : String) : List String :=
  let parts := Path.parts path
  (List.range parts.length).map fun n => "/".intercalate (parts.take (n + 1))

/-- Adds what is at a path to the known files. -/
def fetch (files : FileTable) (path : String) : IO FileTable := do
  if path.isEmpty then return files
  try
    let place := (← IO.currentDir) / path
    let data ← place.metadata
    let modified : Time := ⟨.ofInt data.modified.sec, Time.subsecond data.modified.nsec.toNat⟩
    if ← place.isDir then return (files.makeDirectory path).touch path modified
    return files.putFile path (← IO.FS.readBinFile place) modified
  catch _ => return files

/-- Adds what a run looks at. What is read first tells what else to read, so there are three rounds: settings and the
snapshot, then the features they name. -/
def fetchConsulted (args : List String) : IO FileTable := do
  let mut files := FileTable.empty .epoch
  for _ in List.range 3 do
    for path in CommandLine.consulted files args do
      for part in pathChain path do
        files ← fetch files part
  return files

/-- Writes the snapshot that a run has made. -/
def writeSnapshot (args : List String) (files : FileTable) : IO Unit := do
  match CommandLine.parse args with
  | .ok { snapshot := some path, .. } =>
    match files.readText path with
    | .ok text => IO.FS.writeFile path text
    | .error _ => return
  | _ => return

/-- Prints what a run says and answers its exit code. -/
def report (args : List String) (files : FileTable) : IO UInt32 := do
  match CommandLine.run files args with
  | (.ok output, after) =>
    writeSnapshot args after
    IO.eprint output.err
    IO.print output.out
    return output.exit.toUInt32
  | (.error .refused, _) =>
    IO.eprint CommandLine.helpText
    return 2
  | (.error .help, _) =>
    IO.print CommandLine.helpText
    return 0
  | (.error .version, _) =>
    IO.print CommandLine.versionText
    return 0

end LispDoc

def main (args : List String) : IO UInt32 := do
  LispDoc.report args (← LispDoc.fetchConsulted args)
