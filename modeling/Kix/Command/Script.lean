import Kix.Text.Quoted
import Kix.Text.Utf8

/-!
# Scripts

A script is named by a path and read as a whole. It may not be there, the path
may lead to something that is not a file, or the bytes may not be text; a
message then names the path, what failed and why.
-/

namespace Kix

/-- Why a path gives no bytes. -/
inductive PathFault where
  | missing
  /-- The path goes on behind a file. -/
  | notDirectory
  /-- The path, or a name in it, is longer than paths or names may be. -/
  | nameTooLong
  /-- The path leads to something that is not a file. -/
  | notFile
  /-- Any other reason, in the words of the system. -/
  | other (reason : String)
  deriving DecidableEq, Repr

/-- The reason in the words of the system, with the number it has there. -/
def PathFault.reason : PathFault → String
  | missing => "No such file or directory (os error 2)"
  | notDirectory => "Not a directory (os error 20)"
  | nameTooLong => "File name too long (os error 36)"
  | notFile => "No such device (os error 19)"
  | other reason => reason

/-- The fault that the system gives a number and words of its own. -/
def PathFault.ofCode (code : Nat) (details : String) : PathFault :=
  match code with
  | 2 => missing
  | 19 => notFile
  | 20 => notDirectory
  | 36 => nameTooLong
  | _ => other s!"{details} (os error {code})"

/-- Why a script cannot be read. -/
inductive ScriptFault where
  | unopened (fault : PathFault)
  /-- It was opened but its contents cannot be had. -/
  | unmapped (fault : PathFault)
  | notText (fault : Utf8.Fault)

namespace ScriptFault

/-- What failed, and why. -/
def explain (path : String) : ScriptFault → String × String
  | unopened fault => (s!"Failed to open file {path}", fault.reason)
  | unmapped fault => (s!"Failed to map file {path}", fault.reason)
  | notText fault => (s!"File {path} is not valid UTF-8", fault.message)

/-- **The message about a script that cannot be read.** -/
def render (path : String) (fault : ScriptFault) : String :=
  let (failure, cause) := fault.explain (Text.quotePath path)
  s!"Error: {failure}\n\nCaused by:\n    {cause}\n"

end ScriptFault

/-- The text of a script. -/
def scriptText (contents : Except ScriptFault ByteArray) : Except ScriptFault String :=
  match contents with
  | .error fault => .error fault
  | .ok bytes =>
    match Utf8.decode bytes with
    | .ok source => .ok source
    | .error fault => .error (.notText fault)

end Kix
