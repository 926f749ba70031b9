import Mathlib

/-!
# Little-endian fields and a byte cursor

A growable byte buffer under one position, as an in-memory writer has it: a write
replaces what lies under the position and extends the buffer past its end, a seek
moves the position and nothing else. Integers are written as fixed-width
little-endian fields and read back by the same weights.
-/
namespace ByteCursor

/-- The `k` lowest base-256 digits of `n`, lowest first. -/
def leBytes : Nat → Nat → List UInt8
  | 0, _ => []
  | k + 1, n => UInt8.ofNat n :: leBytes k (n / 256)

def leValue : List UInt8 → Nat
  | [] => 0
  | b :: bs => b.toNat + 256 * leValue bs

@[simp] theorem leBytes_length (k n : Nat) : (leBytes k n).length = k := by
  induction k generalizing n with
  | zero => rfl
  | succ k ih => simp [leBytes, ih]

theorem leValue_leBytes (k n : Nat) : leValue (leBytes k n) = n % 256 ^ k := by
  induction k generalizing n with
  | zero => simp [leBytes, leValue, Nat.mod_one]
  | succ k ih =>
    have hm : n % 256 ^ (k + 1) = n % 256 + 256 * (n / 256 % 256 ^ k) := by
      rw [Nat.pow_succ', Nat.mod_mul]
    simp [leBytes, leValue, ih, hm]

def le16 (x : UInt16) : List UInt8 := leBytes 2 x.toNat

def le32 (x : UInt32) : List UInt8 := leBytes 4 x.toNat

@[simp] theorem le16_length (x : UInt16) : (le16 x).length = 2 := leBytes_length 2 _
@[simp] theorem le32_length (x : UInt32) : (le32 x).length = 4 := leBytes_length 4 _

@[simp] theorem leValue_le16 (x : UInt16) : leValue (le16 x) = x.toNat := by
  rw [le16, leValue_leBytes]
  exact Nat.mod_eq_of_lt x.toNat_lt

@[simp] theorem leValue_le32 (x : UInt32) : leValue (le32 x) = x.toNat := by
  rw [le32, leValue_leBytes]
  exact Nat.mod_eq_of_lt x.toNat_lt

def readU32 (bytes : List UInt8) (offset : Nat) : Option UInt32 :=
  if offset + 4 ≤ bytes.length then
    some (UInt32.ofNat (leValue ((bytes.drop offset).take 4)))
  else none

/-- A field just written is the field read, whatever stands around it. -/
theorem readU32_append (before after : List UInt8) (x : UInt32) :
    readU32 (before ++ (le32 x ++ after)) before.length = some x := by
  have hfit : before.length + 4 ≤ (before ++ (le32 x ++ after)).length := by
    simp only [List.length_append, le32_length]
    omega
  have htake : ((before ++ (le32 x ++ after)).drop before.length).take 4 = le32 x := by
    rw [List.drop_left, ← le32_length x, List.take_left]
  rw [readU32, if_pos hfit, htake, leValue_le32, UInt32.ofNat_toNat]

/-- Two buffers that differ in one field agree at every byte outside it. -/
theorem getElem?_patch (before old new after : List UInt8) (h : new.length = old.length)
    (i : Nat) (hi : i < before.length ∨ before.length + old.length ≤ i) :
    (before ++ (new ++ after))[i]? = (before ++ (old ++ after))[i]? := by
  rcases hi with hi | hi
  · rw [List.getElem?_append_left hi, List.getElem?_append_left hi]
  · have hb : before.length ≤ i := by omega
    rw [List.getElem?_append_right hb, List.getElem?_append_right hb,
      List.getElem?_append_right (by omega), List.getElem?_append_right (by omega), h]

structure Cursor where
  buffer : List UInt8
  position : Nat
  deriving DecidableEq, Repr

namespace Cursor

def empty : Cursor := ⟨[], 0⟩

/-- Bytes past the end of the buffer are zero before a write lands beyond it. -/
def write (c : Cursor) (bytes : List UInt8) : Cursor :=
  ⟨c.buffer.take c.position ++ List.replicate (c.position - c.buffer.length) 0 ++ bytes ++
    c.buffer.drop (c.position + bytes.length), c.position + bytes.length⟩

def seek (c : Cursor) (position : Nat) : Cursor := { c with position }

def writeU8 (c : Cursor) (x : UInt8) : Cursor := c.write [x]
def writeU16 (c : Cursor) (x : UInt16) : Cursor := c.write (le16 x)
def writeU32 (c : Cursor) (x : UInt32) : Cursor := c.write (le32 x)

/-- A cursor that has only ever been appended to. -/
def atEnd (bytes : List UInt8) : Cursor := ⟨bytes, bytes.length⟩

@[simp] theorem atEnd_buffer (bytes : List UInt8) : (atEnd bytes).buffer = bytes := rfl
@[simp] theorem atEnd_position (bytes : List UInt8) : (atEnd bytes).position = bytes.length := rfl
@[simp] theorem seek_buffer (c : Cursor) (p : Nat) : (c.seek p).buffer = c.buffer := rfl
@[simp] theorem seek_position (c : Cursor) (p : Nat) : (c.seek p).position = p := rfl

theorem empty_eq : empty = atEnd [] := rfl

@[simp] theorem write_atEnd (bytes more : List UInt8) :
    (atEnd bytes).write more = atEnd (bytes ++ more) := by
  simp [write, atEnd]

@[simp] theorem writeU8_atEnd (bytes : List UInt8) (x : UInt8) :
    (atEnd bytes).writeU8 x = atEnd (bytes ++ [x]) := write_atEnd _ _

@[simp] theorem writeU16_atEnd (bytes : List UInt8) (x : UInt16) :
    (atEnd bytes).writeU16 x = atEnd (bytes ++ le16 x) := write_atEnd _ _

@[simp] theorem writeU32_atEnd (bytes : List UInt8) (x : UInt32) :
    (atEnd bytes).writeU32 x = atEnd (bytes ++ le32 x) := write_atEnd _ _

/-- A write over bytes of the same number replaces exactly those. -/
theorem write_patch (before old new after : List UInt8) (h : new.length = old.length) :
    (Cursor.write ⟨before ++ (old ++ after), before.length⟩ new).buffer =
      before ++ (new ++ after) := by
  have htake : (before ++ (old ++ after)).take before.length = before := List.take_left
  have hdrop : (before ++ (old ++ after)).drop (before.length + new.length) = after := by
    rw [h, ← List.drop_drop, List.drop_left, List.drop_left]
  have hpad : before.length - (before ++ (old ++ after)).length = 0 := by
    simp only [List.length_append]
    omega
  simp only [write, htake, hdrop, hpad, List.replicate_zero, List.append_nil, List.append_assoc]

end Cursor
end ByteCursor
