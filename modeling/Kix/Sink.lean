/-!
# Output streams

A **sink** collects the bytes written to it. It may be limited: then it takes
bytes as long as there is room, and a write that does not fit leaves the part
that does and fails, for a reason of the sink's own.
-/

namespace Kix

structure Sink where
  written : ByteArray := .empty
  /-- The number of bytes the sink takes in all, unless it takes any number. -/
  limit : Option Nat := none
  /-- Why a write fails that there is no room for. -/
  writeFault : String := "sink full"
  /-- Why flushing the sink fails, if it does. -/
  flushFault : Option String := none

namespace Sink

/-- How many more bytes the sink takes, unless it takes any number. -/
def room? (s : Sink) : Option Nat := s.limit.map (· - s.written.size)

/-- Whether there is room for all of a text. -/
def fits (s : Sink) (text : String) : Bool := s.room?.all (text.utf8ByteSize ≤ ·)

/-- **Writing text**, as much of it as there is room for. -/
def put (s : Sink) (text : String) : Sink :=
  match s.room? with
  | none => { s with written := s.written ++ text.toUTF8 }
  | some room => { s with written := s.written ++ text.toUTF8.extract 0 room }

end Sink

end Kix
