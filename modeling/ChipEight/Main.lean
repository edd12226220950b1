import ChipEight.CommandLine

/-!
The command line program. It runs a program file without a window, or plays a
session whose turns are the lines of standard input: `+q` presses the key `q`,
`-q` releases it, `quit` closes the window, and words are separated by blanks.
The file, the input and the time are read before the run begins, so no time
passes in it, and what it printed is written when it has ended. No window is
drawn.
-/

namespace ChipEight.Terminal

/-- A clock that has stopped at the present time, in seconds. -/
def present : IO Clock := do
  return Clock.ofList [Float.ofNat (← IO.monoNanosNow) / 1000000000]

/-- The fault of a file that could not be read. The system's number for a
directory is 21, with either sign. -/
def fileFault (name : String) : IO.Error → Fault
  | .inappropriateType _ code _ =>
    if code = 21 ∨ code = 0 - 21 then .fileIsDirectory name else .fileIsNoDirectory name
  | .invalidArgument .. => .fileNameTooLong name
  | _ => .fileMissing name

def fileContent (name : String) : IO (Except Fault (List UInt8)) := do
  if name.toList.contains '\x00' then return .error .zeroInFileName
  try
    let bytes ← IO.FS.readBinFile name
    return .ok bytes.toList
  catch e => return .error (fileFault name e)

def openFile (name : String) : IO Files := do
  let content ← fileContent name
  return ⟨fun other => if other = name then content else Files.empty.read other⟩

def inputEvent (word : String) : InputEvent :=
  match word.toList with
  | '+' :: name => .keyDown (String.ofList name)
  | '-' :: name => .keyUp (String.ofList name)
  | _ => if word = "quit" then .quit else .other

def readScript : IO (List (List InputEvent)) := do
  let lines ← (← IO.getStdin).lines
  return lines.toList.map fun line => (line.splitOn " ").map inputEvent

/-- What a program with these arguments finds around it. Only a session reads the input. -/
def surroundings (arguments : List String) : IO Surroundings := do
  let (files, script) ← match Options.ofArguments arguments with
    | .error _ => pure (Files.empty, [])
    | .ok o => do
      let script ← if o.headless.isSome then pure [] else readScript
      pure (← openFile o.rom, script)
  return {
    files := files
    clock := ← present
    script := script
    silence := some "no audio device"
    terminal := ← (← IO.getStdout).isTty }

end ChipEight.Terminal

open ChipEight in
def main (arguments : List String) : IO UInt32 := do
  let outcome := CommandLine.run arguments (← Terminal.surroundings arguments)
  outcome.output.forM fun line => IO.println line
  match outcome.ending with
  | .status code =>
    if code = CommandLine.refusalStatus .wrong then IO.eprintln "usage: chip8 [options] ROM"
    return UInt32.ofNat code
  | .uncaught fault =>
    IO.eprintln fault.message
    return 1
