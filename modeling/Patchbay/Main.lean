import Patchbay.Command

set_option autoImplicit false

namespace Patchbay

def readDisk (inside : String → IO (Option FileTree)) (path : String) : IO (Option FileTree) := do
  try
    let directory ← IO.FS.realPath path
    if ← directory.isDir then
      let mut entries : List (String × FileTree) := []
      for entry in ← directory.readDir do
        if let some tree ← inside entry.fileName then
          entries := (entry.fileName, tree) :: entries
      return some (.directory entries)
    else return some (.file (String.fromUTF8? (← IO.FS.readBinFile path)))
  catch _ => return none

def readLeaf (path : String) : IO (Option FileTree) := readDisk (fun _ => return none) path

def readProject (path : String) : IO (Option FileTree) :=
  let inside (name : String) : IO (Option FileTree) :=
    let inner := Path.join path name
    if name = Project.manifestName then readLeaf inner
    else if name = Project.scriptsName then readDisk (fun file => readLeaf (Path.join inner file)) inner
    else return none
  readDisk inside path

def readFiles (path : String) : IO Files := do
  let here := Path.placeFrom [] (Path.parts (← IO.currentDir).toString)
  let files := Files.workingAt here
  match ← readProject path with
  | none => return files
  | some tree =>
    let place := Path.placeFrom (files.start path) (Path.parts path)
    return { files with root := FileTree.put tree place files.root }

def freshGuids : IO (Nat → Guid) := do
  let high ← IO.rand 0 (twoTo 48 - 1)
  let middle ← IO.rand 0 (twoTo 12 - 1)
  let low ← IO.rand 0 (twoTo 61 - 1)
  let first := high * twoTo 80 + (4 * twoTo 12 + middle) * twoTo 64 + twoTo 63 + low
  return fun n => ⟨BitVec.ofNat 128 (first + n)⟩

def usage : String := "Usage: [-p PROJECT] [--log-json] <run|call|check>
  run    [--event NAME] [--component GUID] [--args JSON]
  call   --script NAME --function NAME [--interface NAME] [--args JSON]
  check"

def logLine (asJson : Bool) (level : LogLevel) (text : String) : String :=
  if asJson then (Document.object [("level", .string level.name), ("message", .string text)]).compact
  else level.name ++ " " ++ text

def runCommand (command : Command) : IO UInt32 := do
  let (result, log) := command.execute (← freshGuids) (← readFiles command.project)
  for (level, text) in log do
    IO.eprintln (logLine command.logJson level text)
  match result with
  | .done none => pure ()
  | .done (some output) => IO.println output
  | .failed text none => IO.eprintln ("Error: " ++ text)
  | .failed text (some cause) => IO.eprintln ("Error: " ++ text ++ "\n\nCaused by:\n    " ++ cause)
  return UInt32.ofNat result.code

def runArguments (arguments : List String) : IO UInt32 := do
  match Command.parse arguments with
  | .ok command => runCommand command
  | .error refusal =>
    match refusal with
    | .help => IO.println usage
    | .usage => IO.eprintln usage
    return UInt32.ofNat refusal.code

end Patchbay

def main (arguments : List String) : IO UInt32 := Patchbay.runArguments arguments
