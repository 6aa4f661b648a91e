import CodeSurvey.CommandLine.Help
import CodeSurvey.CommandLine.Run

namespace CodeSurvey

open CommandLine Loading

partial def readLines (stream : IO.FS.Stream) (before : List String) : IO (List String) := do
  let line ← stream.getLine
  if line.isEmpty then return before.reverse
  else readLines stream ((if line.endsWith "\n" then (line.dropEnd 1).toString else line) :: before)

def readNode (path : String) : IO FileNode := do
  if path.endsWith "/" then return .folder []
  try return .file (← IO.FS.readBinFile path)
  catch _ => return .unreadable 0

def readFileSystem (paths : List String) : IO FileNode :=
  paths.foldlM (fun root path => do
    let steps := (Paths.segments path).filter Paths.isStep
    if steps.isEmpty || (path.endsWith "/" && (root.descend? steps).isSome) then return root
    else return FileNode.put (← readNode path) steps root) (.folder [])

def secondsText (milliseconds : Nat) : String :=
  let hundredths := (milliseconds + 5) / 10
  let places := toString (hundredths % 100)
  toString (hundredths / 100) ++ "." ++ "".pushn '0' (2 - places.length) ++ places

def writeOutput (task : Task) (disk : Disk) : IO Unit := do
  match task with
  | .analyze _ (some path) .. =>
    match (disk.find? path).bind (·.bytes?) with
    | some content => IO.FS.writeBinFile path content
    | none => return
  | _ => return

/-- Runs a command and shows what comes of it. -/
def runInvocation (i : Invocation) : IO UInt32 := do
  let start ← IO.monoMsNow
  let stdout ← IO.getStdout
  let stderr ← IO.getStderr
  let top ← readFileSystem (← readLines (← IO.getStdin) [])
  let onTerminal ← match i.task with
    | .analyze .. => stderr.isTty
    | _ => stdout.isTty
  match i.run onTerminal top.disk with
  | .ok result =>
    writeOutput i.task result.disk
    stdout.putStr result.shown
    if let some status := result.status then
      for line in status.lines (secondsText ((← IO.monoMsNow) - start)) do
        stderr.putStrLn line
    return 0
  | .error e =>
    stderr.putStr e.message
    return e.exitCode

end CodeSurvey

open CodeSurvey CommandLine in
def main (args : List String) : IO UInt32 := do
  match Request.ofArguments args with
  | .run i => runInvocation i
  | .overview => IO.println Help.general; return 0
  | .help command => IO.print (Help.text command); return 0
  | .version command => IO.print (Help.version command); return 0
  | .misuse e => IO.eprintln ("error: " ++ e.message); return 2
