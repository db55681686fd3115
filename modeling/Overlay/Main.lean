import Overlay.CommandLine.Response

/-!
# The program

The program reads the scenario file that its arguments name, if any, and carries out the
response to them.
-/
namespace Overlay.CommandLine

/-- What is found at a path. -/
def contentAt (path : String) : IO Scenario.Content := do
  try
    return .bytes (← IO.FS.readBinFile path)
  catch e =>
    match e with
    | .noFileOrDirectory .. => return .absent
    | e => return .unreadable (toString e)

/-- Write a file, in directories made for it if need be. -/
def save (path content : String) : IO Unit := do
  match directory? path with
  | some directory => if directory.isEmpty then pure () else IO.FS.createDirAll directory
  | none => pure ()
  IO.FS.writeFile path content

/-- Carry out a response, and give back the exit code. -/
def Response.perform (r : Response) : IO Nat := do
  match r.saved with
  | some (path, content) =>
    try
      save path content
    catch e =>
      (← IO.getStderr).putStr
        (Response.failure ⟨"Failed to write configuration file", [toString e]⟩).err
      return 1
  | none => pure ()
  (← IO.getStderr).putStr r.err
  (← IO.getStdout).putStr r.out
  return r.code

end Overlay.CommandLine

open Overlay

/-- Respond to the arguments of the program. -/
def main (arguments : List String) : IO UInt32 := do
  let content ← match CommandLine.source? arguments with
    | some path => CommandLine.contentAt path
    | none => pure .absent
  let program := (← IO.appPath).fileName.getD "simulate"
  let response := CommandLine.respond World.budget program arguments fun _ => content
  return (← response.perform).toUInt32
