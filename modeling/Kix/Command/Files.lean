import Kix.Command.Script

/-!
# Files in memory

A tree of files and folders in which the command can run without a disk. A
path is **followed** name by name, from the root or from the folder the command
runs in; `Files.contents` gives the bytes of the file it leads to, or why it
leads to none.
-/

namespace Kix

/-- What stands under a name. -/
inductive Entry where
  | file (contents : ByteArray)
  | folder (entries : List (String × Entry))

/-- An entry together with the folders around it, the innermost first. -/
structure Spot where
  entry : Entry
  around : List Entry := []

namespace Spot

/-- The longest name, in bytes. -/
def maxName : Nat := 255

/-- The folder around a spot; the root is around itself. -/
def outward (s : Spot) : Spot :=
  match s.around with
  | [] => s
  | folder :: around => ⟨folder, around⟩

/-- **One name further.** Empty names and `.` stay in the folder, `..` leaves
it, and no name leads on from a file. -/
def enter (s : Spot) (name : String) : Except PathFault Spot :=
  match s.entry with
  | .file _ => .error .notDirectory
  | .folder entries =>
    if name = "" ∨ name = "." then .ok s
    else if name = ".." then .ok s.outward
    else if maxName < name.utf8ByteSize then .error .nameTooLong
    else
      match entries.lookup name with
      | some entry => .ok ⟨entry, s.entry :: s.around⟩
      | none => .error .missing

end Spot

/-- A file tree and the folder in it that the command runs in. -/
structure Files where
  root : Spot
  home : Spot

namespace Files

/-- Paths are shorter than this, in bytes. -/
def pathLimit : Nat := 4096

/-- **Following a path.** -/
def follow (files : Files) (path : String) : Except PathFault Spot :=
  if path.isEmpty then .error .missing
  else if pathLimit ≤ path.utf8ByteSize then .error .nameTooLong
  else
    (path.splitOn "/").foldlM Spot.enter (if path.startsWith "/" then files.root else files.home)

/-- **The bytes of the file at a path.** A folder can be opened, but has none. -/
def contents (files : Files) (path : String) : Except ScriptFault ByteArray :=
  match files.follow path with
  | .error fault => .error (.unopened fault)
  | .ok spot =>
    match spot.entry with
    | .file bytes => .ok bytes
    | .folder _ => .error (.unmapped .notFile)

end Files

end Kix
