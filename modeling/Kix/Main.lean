import Std.Time.DateTime.Timestamp
import Kix.Command.Run

/-!
# The command

Reading the script or the lines that are entered, and writing what `Kix.Command`
makes of them. Nothing is decided here.
-/

namespace Kix

/-- More steps than a run can take. -/
def ampleSteps : Nat := 1000000000000000000

/-- The readings of a clock that shows the present time when it is next read,
`readings` readings having been taken, and moves on by a millisecond with each
reading. -/
def clockFrom (readings : Nat) : IO (Nat → Nat) := do
  let now ← Std.Time.Timestamp.now
  let start := now.toMillisecondsSinceUnixEpoch.val.toNat
  return fun n => start + (n - readings)

/-- The number of a failure, which the system may give with a minus sign. -/
def systemCode (code : UInt32) : Nat :=
  if code.toNat < 0x80000000 then code.toNat else 0x100000000 - code.toNat

/-- The fault that a failure of the system stands for. -/
def systemFault : IO.Error → PathFault
  | .noFileOrDirectory _ code details | .permissionDenied _ code details
  | .inappropriateType _ code details | .invalidArgument _ code details
  | .resourceExhausted _ code details | .noSuchThing _ code details
  | .otherError code details => .ofCode (systemCode code) details.capitalize
  | other => .other (toString other)

/-- The contents of a script. A directory can be opened, but has none. -/
def readContents (path : String) : IO (Except ScriptFault ByteArray) := do
  try
    return .ok (← IO.FS.readBinFile path)
  catch
    | .inappropriateType _ 21 _ => return .error (.unmapped .notFile)
    | error => return .error (.unopened (systemFault error))

/-- Writing bytes to the standard streams. -/
def writeStreams (out err : ByteArray) : IO Unit := do
  let stdout ← IO.getStdout
  stdout.write out
  stdout.flush
  let stderr ← IO.getStderr
  stderr.write err
  stderr.flush

/-- The next line that is entered, with its line end; nothing at the end of the
input. -/
partial def readLine (stdin : IO.FS.Stream) (line : ByteArray) : IO ByteArray := do
  let byte ← stdin.read 1
  if byte.isEmpty then return line
  let line := line ++ byte
  if byte.data == #[10] then return line else readLine stdin line

/-- Prompting for lines until the input ends. -/
partial def promptLoop (stdin : IO.FS.Stream) (printTree : Bool) (s : Session) : IO UInt32 := do
  let ((out, err), s) := s.prompt.drain
  writeStreams out err
  let line ← readLine stdin .empty
  if line.isEmpty then return 0
  match Utf8.decode line with
  | .error _ =>
    writeStreams .empty Command.badLine.toUTF8
    return 1
  | .ok text =>
    let clock ← clockFrom s.machine.readings
    match { s with machine.clock := clock }.enter? ampleSteps printTree text with
    | some s => promptLoop stdin printTree s
    | none => return 70

end Kix

open Kix in
/-- Runs a script, lists its tokens, or prompts for lines. -/
def main (arguments : List String) : IO UInt32 := do
  match Options.read arguments with
  | .error fault =>
    IO.eprintln s!"error: {fault.message}"
    return 2
  | .ok options =>
    if options.log then IO.FS.writeFile "kix.log" ""
    let clock ← clockFrom 0
    match options.script with
    | none =>
      promptLoop (← IO.getStdin) options.printTree (Command.openSession options clock)
    | some path =>
      let contents ← readContents path
      match Command.run? options ampleSteps clock (fun _ => contents) .empty with
      | some result =>
        writeStreams result.out.written result.err.written
        return UInt32.ofNat result.status
      | none => return 70
