/-!
# Frames

Local variables live in **frames**. A frame holds values in the order in which
they were defined and may have a **parent**, the frame of the surrounding
scope. Frames are shared: several closures and the running block can hold a
reference to one, and an assignment through any of them is seen by all. So
frames live in a **store** and are named by references; the store only grows.
-/

namespace Kix

/-- The name of a frame: its place in the store, in the order of creation. -/
abbrev FrameRef := Nat

/-- The values of one scope, and the frame of the scope around it. -/
structure Frame (α : Type) where
  values : Array α := #[]
  parent : Option FrameRef := none

/-- All frames made so far. -/
structure Store (α : Type) where
  frames : Array (Frame α) := #[]

namespace Store

variable {α : Type}

/-- The reference that the next new frame gets. -/
def next (s : Store α) : FrameRef := s.frames.size

/-- A new frame, named by the former `next`. -/
def allocate (s : Store α) (frame : Frame α) : Store α := ⟨s.frames.push frame⟩

/-- The parent of a frame. -/
def parent? (s : Store α) (f : FrameRef) : Option FrameRef := (s.frames[f]?).bind Frame.parent

/-- How many values a frame holds. -/
def count (s : Store α) (f : FrameRef) : Nat :=
  match s.frames[f]? with
  | some frame => frame.values.size
  | none => 0

/-- A new value at the end of a frame; its slot is the former `count`. -/
def define (s : Store α) (f : FrameRef) (value : α) : Store α :=
  ⟨s.frames.modify f fun frame => { frame with values := frame.values.push value }⟩

/-- **The frame at a distance**: the parent of the parent of … the frame. -/
def ancestor? (s : Store α) (f : FrameRef) : Nat → Option FrameRef
  | 0 => some f
  | distance + 1 =>
    match s.parent? f with
    | some parent => s.ancestor? parent distance
    | none => none

/-- The value in a slot of a frame. -/
def get? (s : Store α) (f : FrameRef) (slot : Nat) : Option α :=
  (s.frames[f]?).bind (·.values[slot]?)

/-- The value at an address as seen from a frame. -/
def getAt? (s : Store α) (f : FrameRef) (distance slot : Nat) : Option α :=
  (s.ancestor? f distance).bind (s.get? · slot)

/-- Replacing the value in a slot; a slot that does not exist stays so. -/
def set (s : Store α) (f : FrameRef) (slot : Nat) (value : α) : Store α :=
  ⟨s.frames.modify f fun frame =>
    { frame with values := frame.values.modify slot fun _ => value }⟩

/-- Replacing the value in a slot that exists. -/
def assign? (s : Store α) (f : FrameRef) (slot : Nat) (value : α) : Option (Store α) :=
  if slot < s.count f then some (s.set f slot value) else none

/-- The frame that an address leads to, if the address has a value there. -/
def frameAt? (s : Store α) (f : FrameRef) (distance slot : Nat) : Option FrameRef :=
  (s.ancestor? f distance).filter (slot < s.count ·)

/-- Replacing the value at an address as seen from a frame. -/
def assignAt? (s : Store α) (f : FrameRef) (distance slot : Nat) (value : α) :
    Option (Store α) :=
  (s.frameAt? f distance slot).map (s.set · slot value)

end Store

end Kix
