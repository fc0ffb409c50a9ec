/-
The command line. The first argument says what to do: `compile` one source file, `test` a family or
`time` the passes over a family. The files below the working directory are read before the command
runs, and those it wrote are stored when it has ended. Commands start no outside tools.
-/
import PassCheck.Command.Compile
import PassCheck.Command.Tests
import PassCheck.Command.Time
import PassCheck.Lint.Compiler

namespace PassCheck.Main

/-- The usage of the command line as a whole. -/
def usage : String := "usage: passcheck \x7bcompile,test,time\x7d ...\n"

/-- The command that the first argument names. -/
def select : List String → Job Command.Exit
  | "compile" :: args => Command.Compile.run Lint.load args
  | "test" :: args => Command.Tests.run Lint.load args
  | "time" :: args => Command.Time.run .standard Lint.load args
  | _ => do
    Job.putErr usage
    return .code 2

/-- Reads what stands in a directory, and everything below it. -/
partial def readTree (files : Files) (place : Place) (entry : IO.FS.DirEntry) : IO Files := do
  if ← entry.path.isDir then
    let here := if place.isEmpty then files else files.put place .dir
    (← entry.path.readDir).foldlM (fun fs e => readTree fs (place ++ [e.fileName]) e) here
  else
    return files.put place (.file (← IO.FS.readBinFile entry.path))

/-- Reads a stream to its end. -/
partial def readStream (stream : IO.FS.Stream) (sofar : ByteArray) : IO ByteArray := do
  let chunk ← stream.read 65536
  if chunk.isEmpty then return sofar
  readStream stream (sofar ++ chunk)

/-- The world as it stands outside. A terminal gives no input. -/
def readWorld : IO World := do
  let files ← readTree Files.empty [] ⟨".", ""⟩
  let stdin ← IO.getStdin
  let input ← if ← stdin.isTty then pure ByteArray.empty else readStream stdin ByteArray.empty
  return { World.start files with input := .ofBytes input, tools := [.cannotStart] }

/-- Stores the files that differ, and shows what was written to the output streams. -/
def writeWorld (before after : World) : IO Unit := do
  for (place, content) in after.files.changes before.files do
    IO.FS.writeBinFile ("/".intercalate place) content
  IO.print after.out
  IO.eprint after.err

/-- Shows how a command ended, and gives the exit code. -/
def finish : Except Failure Command.Exit → IO UInt32
  | .ok .normal => return 0
  | .ok (.code n) => return n.toUInt32
  | .ok (.message text) => do
    IO.eprintln text
    return 1
  | .error e => do
    IO.eprintln e.text
    return 1

end PassCheck.Main

/-- Runs a command in the world outside. -/
def main (args : List String) : IO UInt32 := do
  let before ← PassCheck.Main.readWorld
  let (result, after) := (PassCheck.Main.select args).run before
  PassCheck.Main.writeWorld before after
  PassCheck.Main.finish result
