/-!
# UTF-8

Reading bytes as text. Bytes that are not UTF-8 have a first **fault**: where
the text stops being valid, and how many bytes from there can still begin a
character. A fault at the end of the bytes is *incomplete* when more bytes
might have mended it.
-/

namespace Kix.Utf8

/-- Where bytes stop being UTF-8. -/
structure Fault where
  /-- The number of valid bytes before it. -/
  index : Nat
  /-- The length of the longest start of a character there, unless the bytes
  end with it. -/
  length : Option Nat
  deriving DecidableEq, Repr

/-- Bytes other than the first one of a character. -/
def isContinuation (b : UInt8) : Bool := 0x80 ≤ b && b ≤ 0xBF

/-- How many bytes follow the first byte of a character, and between which
bounds the second one lies. The bounds keep out overlong forms, surrogates and
what lies beyond the last code point. -/
def shape? (first : UInt8) : Option (Nat × UInt8 × UInt8) :=
  if 0xC2 ≤ first && first ≤ 0xDF then some (1, 0x80, 0xBF)
  else if first == 0xE0 then some (2, 0xA0, 0xBF)
  else if first == 0xED then some (2, 0x80, 0x9F)
  else if 0xE1 ≤ first && first ≤ 0xEF then some (2, 0x80, 0xBF)
  else if first == 0xF0 then some (3, 0x90, 0xBF)
  else if first == 0xF4 then some (3, 0x80, 0x8F)
  else if 0xF1 ≤ first && first ≤ 0xF3 then some (3, 0x80, 0xBF)
  else none

/-- What the bytes behind the first byte of a character make of it. -/
inductive Tail where
  /-- The character is complete; so many bytes were needed. -/
  | complete (length : Nat)
  /-- The bytes end too early. -/
  | cut
  /-- A byte does not fit; so many fitted. -/
  | broken (length : Nat)
  deriving DecidableEq, Repr

/-- Checking `needed` continuation bytes behind `fitted` good ones. -/
def continuations (fitted : Nat) : Nat → List UInt8 → Tail
  | 0, _ => .complete fitted
  | _ + 1, [] => .cut
  | needed + 1, b :: rest =>
    if isContinuation b then continuations (fitted + 1) needed rest else .broken fitted

/-- Checking the character that begins with the given byte. -/
def character (first : UInt8) (rest : List UInt8) : Tail :=
  if first < 0x80 then .complete 1
  else
    match shape? first with
    | none => .broken 1
    | some (more, low, high) =>
      match rest with
      | [] => .cut
      | second :: others =>
        if low ≤ second && second ≤ high then continuations 2 (more - 1) others
        else .broken 1

/-- The first fault of bytes that stand behind `index` valid ones, `skip` of
the bytes being known to belong to the character before. -/
def faultFrom (index : Nat) (skip : Nat) : List UInt8 → Option Fault
  | [] => none
  | b :: rest =>
    match skip with
    | skip + 1 => faultFrom (index + 1) skip rest
    | 0 =>
      match character b rest with
      | .complete length => faultFrom (index + 1) (length - 1) rest
      | .cut => some ⟨index, none⟩
      | .broken length => some ⟨index, some length⟩

/-- **The first fault of bytes as UTF-8**, if there is one. -/
def fault? (bytes : ByteArray) : Option Fault := faultFrom 0 0 bytes.toList

/-- The text of bytes, or their first fault. -/
def decode (bytes : ByteArray) : Except Fault String :=
  match fault? bytes with
  | some fault => .error fault
  | none => .ok ((String.fromUTF8? bytes).getD "")

/-- The words in which a fault is reported. -/
def Fault.message (f : Fault) : String :=
  match f.length with
  | some length => s!"invalid utf-8 sequence of {length} bytes from index {f.index}"
  | none => s!"incomplete utf-8 byte sequence from index {f.index}"

end Kix.Utf8
