import Kix.Frame

/-!
# Laws of the store

What each operation on frames does to what can be read of a store: the number
of frames, the parent of a frame, how many values it holds, and the value in
each of its slots. Every operation touches one frame at most, and no operation
ever changes a parent.
-/

namespace Kix

namespace Store

variable {α : Type} (s : Store α) (f g : FrameRef)

/-! ## Making a frame -/

@[simp] theorem next_allocate (frame : Frame α) : (s.allocate frame).next = s.next + 1 :=
  Array.size_push _

/-- Allocating a frame leaves the older ones as they were. -/
theorem frames_allocate_of_lt (frame : Frame α) {g : FrameRef} (h : g < s.next) :
    (s.allocate frame).frames[g]? = s.frames[g]? :=
  Array.getElem?_push_lt h |>.trans (Array.getElem?_eq_getElem h).symm

/-- The new frame is found under the number that was the next one. -/
theorem frames_allocate_next (frame : Frame α) :
    (s.allocate frame).frames[s.next]? = some frame :=
  Array.getElem?_push_size

/-- The parents of older frames stay. -/
theorem parent?_allocate_of_lt (frame : Frame α) {g : FrameRef} (h : g < s.next) :
    (s.allocate frame).parent? g = s.parent? g := by
  rw [parent?, s.frames_allocate_of_lt frame h, parent?]

theorem parent?_allocate_next (frame : Frame α) :
    (s.allocate frame).parent? s.next = frame.parent := by
  rw [parent?, s.frames_allocate_next frame]
  rfl

/-- The older frames hold as many values as before. -/
theorem count_allocate_of_lt (frame : Frame α) {g : FrameRef} (h : g < s.next) :
    (s.allocate frame).count g = s.count g := by
  rw [count, s.frames_allocate_of_lt frame h, count]

/-- The new frame holds what it was allocated with. -/
theorem count_allocate_next (frame : Frame α) :
    (s.allocate frame).count s.next = frame.values.size := by
  rw [count, s.frames_allocate_next frame]

/-- Every slot of an older frame keeps its value. -/
theorem get?_allocate_of_lt (frame : Frame α) {g : FrameRef} (h : g < s.next) (slot : Nat) :
    (s.allocate frame).get? g slot = s.get? g slot := by
  rw [get?, s.frames_allocate_of_lt frame h, get?]

/-- The slots of the new frame are its values. -/
theorem get?_allocate_next (frame : Frame α) (slot : Nat) :
    (s.allocate frame).get? s.next slot = frame.values[slot]? := by
  rw [get?, s.frames_allocate_next frame]
  rfl

/-! ## Slots and counts -/

/-- A frame that does not exist holds nothing. -/
theorem count_of_le {g : FrameRef} (h : s.next ≤ g) : s.count g = 0 := by
  rw [count, Array.getElem?_eq_none h]

/-- A frame with a slot in it is one of those allocated. -/
theorem lt_next_of_lt_count {slot : Nat} (h : slot < s.count g) : g < s.next := by
  refine Nat.lt_of_not_le fun hle => ?_
  rw [s.count_of_le hle] at h
  exact Nat.not_lt_zero _ h

/-- A slot holds a value exactly if it is below the count. -/
theorem isSome_get?_iff {slot : Nat} : (s.get? g slot).isSome ↔ slot < s.count g := by
  unfold get? count
  cases s.frames[g]? with
  | none => exact iff_of_false Bool.false_ne_true (Nat.not_lt_zero slot)
  | some frame => exact iff_of_eq (isSome_getElem? frame.values slot)

/-- There is nothing in a slot that is not filled yet. -/
theorem get?_eq_none {slot : Nat} (h : s.count g ≤ slot) : s.get? g slot = none := by
  cases found : s.get? g slot with
  | none => rfl
  | some value =>
    have below := (s.isSome_get?_iff g).1 (Option.isSome_iff_exists.2 ⟨value, found⟩)
    exact absurd h (Nat.not_le.2 below)

/-! ## A new value in a frame -/

section Define

variable (value : α)

@[simp] theorem next_define : (s.define f value).next = s.next := Array.size_modify

/-- Defining a variable appends to one frame. -/
theorem frames_define :
    (s.define f value).frames[g]?
      = if f = g then s.frames[g]?.map fun frame => { frame with values := frame.values.push value }
        else s.frames[g]? :=
  Array.getElem?_modify

@[simp] theorem parent?_define : (s.define f value).parent? g = s.parent? g := by
  rw [parent?, frames_define, parent?]
  split
  · cases s.frames[g]? <;> rfl
  · rfl

/-- The number of values in any other frame stays. -/
theorem count_define_of_ne {f g : FrameRef} (h : f ≠ g) :
    (s.define f value).count g = s.count g := by
  rw [count, frames_define, if_neg h, count]

/-- The frame has one value more. -/
theorem count_define_self {f : FrameRef} (h : f < s.next) :
    (s.define f value).count f = s.count f + 1 := by
  rw [count, frames_define, if_pos rfl, count, Array.getElem?_eq_getElem h]
  exact Array.size_push _

/-- The slots of the other frames keep their values. -/
theorem get?_define_of_ne {f g : FrameRef} (h : f ≠ g) (slot : Nat) :
    (s.define f value).get? g slot = s.get? g slot := by
  rw [get?, frames_define, if_neg h, get?]

/-- The value is found in the slot behind the last one, and the slots before it are
unchanged. -/
theorem get?_define_self {f : FrameRef} (h : f < s.next) (slot : Nat) :
    (s.define f value).get? f slot
      = if slot = s.count f then some value else s.get? f slot := by
  rw [get?, frames_define, if_pos rfl, get?, count, Array.getElem?_eq_getElem h]
  exact Array.getElem?_push

end Define

/-! ## Replacing a value -/

section Set

variable (slot : Nat) (value : α)

@[simp] theorem next_set : (s.set f slot value).next = s.next := Array.size_modify

/-- Assigning to a slot changes the values of one frame. -/
theorem frames_set :
    (s.set f slot value).frames[g]?
      = if f = g then s.frames[g]?.map fun frame =>
          { frame with values := frame.values.modify slot fun _ => value }
        else s.frames[g]? :=
  Array.getElem?_modify

@[simp] theorem parent?_set : (s.set f slot value).parent? g = s.parent? g := by
  rw [parent?, frames_set, parent?]
  split
  · cases s.frames[g]? <;> rfl
  · rfl

@[simp] theorem count_set : (s.set f slot value).count g = s.count g := by
  rw [count, frames_set, count]
  by_cases h : f = g
  · rw [if_pos h]
    cases s.frames[g]? with
    | none => rfl
    | some frame => exact Array.size_modify
  · rw [if_neg h]

/-- The slot holds what was assigned. -/
theorem get?_set_self {f : FrameRef} {slot : Nat} (h : slot < s.count f) :
    (s.set f slot value).get? f slot = some value := by
  have exists_frame := s.lt_next_of_lt_count f h
  rw [get?, frames_set, if_pos rfl, Array.getElem?_eq_getElem exists_frame]
  rw [count, Array.getElem?_eq_getElem exists_frame] at h
  show (s.frames[f].values.modify slot fun _ => value)[slot]? = some value
  rw [Array.getElem?_modify, if_pos rfl, Array.getElem?_eq_getElem h]
  rfl

/-- Every other slot, in this frame or another, keeps its value. -/
theorem get?_set_of_ne {f g : FrameRef} {slot slot' : Nat} (h : ¬ (f = g ∧ slot = slot')) :
    (s.set f slot value).get? g slot' = s.get? g slot' := by
  rw [get?, frames_set, get?]
  split
  · next heq =>
    cases s.frames[g]? with
    | none => rfl
    | some frame =>
      show (frame.values.modify slot fun _ => value)[slot']? = frame.values[slot']?
      rw [Array.getElem?_modify, if_neg fun hslot => h ⟨heq, hslot⟩]
  · rfl

end Set

/-! ## Addresses -/

section Address

variable {s : Store α} {current : Option FrameRef} {g : FrameRef} {distance : Nat}

/-- The value at an address is the one in the frame that the distance leads to. -/
theorem bind_getAt? (reached : current.bind (s.ancestor? · distance) = some g) (slot : Nat) :
    current.bind (s.getAt? · distance slot) = s.get? g slot := by
  unfold getAt?
  rw [← Option.bind_assoc, reached, Option.bind_some]

/-- That frame is where the address is, if the slot is there. -/
theorem bind_frameAt? (reached : current.bind (s.ancestor? · distance) = some g) (slot : Nat) :
    current.bind (s.frameAt? · distance slot) = if slot < s.count g then some g else none := by
  cases current with
  | none => cases reached
  | some f =>
    rw [Option.bind_some] at reached
    rw [Option.bind_some, frameAt?, reached, Option.filter_some]
    simp only [decide_eq_true_eq]

end Address

end Store

end Kix
