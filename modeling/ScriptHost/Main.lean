import ScriptHost.Command.Run

/-!
# The program

Reads the command line, the environment and the file that the command names, and writes what the
command leaves behind.  The server speaks to one client, on the standard streams, as a super-server
hands it over.
-/

namespace ScriptHost.Terminal

/-- All that the standard input holds. -/
partial def readInput (input : IO.FS.Stream) (read : ByteArray) : IO ByteArray := do
  let more ← input.read 65536
  if more.isEmpty then return read else readInput input (read ++ more)

/-- What reading a file gives. -/
def readFile (file : String) : IO (Except Files.Fault (List UInt8)) := do
  try
    return .ok (← IO.FS.readBinFile file).toList
  catch
    | .noFileOrDirectory .. => return .error .notFound
    | .inappropriateType .. => return .error .isADirectory
    | _ => return .error .invalidArgument

/-- The variables of the environment that the program looks at. -/
def readVariables : IO (List (String × String)) := do
  let names := ["SNASK_HOST", "SNASK_PORT", "SNASK_MAX_REQUESTS", "SNASK_LOG"]
  return (← names.mapM fun name ↦ do return (← IO.getEnv name).map (name, ·)).filterMap id

/-- The client on the standard input, if the command serves one. -/
def readClient (command : Command) : IO Network := do
  match command with
  | .serve .. =>
    let bytes ← readInput (← IO.getStdin) .empty
    return .delivering [.ok [.bytes bytes.toList]]
  | _ => return .delivering []

/-- Writes what a command leaves behind. -/
def writeResult (result : Command.Result) (sent : List (List UInt8)) : IO UInt32 := do
  let output ← IO.getStdout
  output.putStr result.output
  for bytes in sent do
    output.write ⟨bytes.toArray⟩
  output.flush
  (← IO.getStderr).putStr result.errors
  return result.code.toUInt32

end ScriptHost.Terminal

open ScriptHost Terminal in
/-- Does what the words of the command line ask for. -/
def main (words : List String) : IO UInt32 := do
  match Command.parse words with
  | .error refusal => writeResult (Command.refuse refusal) []
  | .ok invocation =>
    let contents ← readFile invocation.command.file
    let world : World := { World.initial with
      environment := ← readVariables
      network := ← readClient invocation.command }
    let (result, after) := Command.run invocation contents world
    writeResult result after.sent.toList
