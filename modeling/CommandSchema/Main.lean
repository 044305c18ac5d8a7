import CommandSchema.CommandLine.Run

/-!
# The program

The command line on the files of the machine.
-/

namespace CommandSchema

/-- The text that an open file holds, if it is one. -/
def readHandle (handle : IO.FS.Handle) : IO ReadResult := do
  try
    let bytes ← handle.readBinToEnd
    return (String.fromUTF8? bytes).elim .notRead .text
  catch _ => return .notRead

/-- What comes of reading a path on the machine. -/
def readFile (path : String) : IO ReadResult := do
  if path.toList.contains '\x00' then return .notOpened
  try
    let handle ← IO.FS.Handle.mk path .read
    readHandle handle
  catch _ => return .notOpened

/-- Writes a text at a path on the machine. -/
def writeFile (path text : String) : IO Bool := do
  let parent := Path.parent path
  if path.toList.contains '\x00' then return false
  try
    unless parent.isEmpty do
      IO.FS.createDirAll parent
    IO.FS.writeFile path text
    return true
  catch _ => return false

/-- Access to the machine. -/
def onMachine : CommandLine.Access IO where
  read := readFile
  write := writeFile
  print := IO.println

/-- Runs a command line on the machine, tells why if it fails, and gives its status. -/
def runProgram (args : List String) : IO UInt32 := do
  let outcome ← CommandLine.run onMachine args
  match outcome with
  | .success () => pure ()
  | .failure cause => IO.eprintln cause.line
  | .usage => IO.eprintln "usage: (generate|check|dump|parse|bind) --input PATH [--config PATH]"
  return outcome.status.toUInt32

end CommandSchema

/-- The program. -/
def main (args : List String) : IO UInt32 := CommandSchema.runProgram args
