/-!
# Windows of packed bytes

Reading and replacing bytes at a position. A window that does not lie inside is refused before the
bytes are touched, so an offset may be any natural number. The list of the bytes is the view in
which the operations are described.
-/

namespace BootConfig.Bytes

/-- The bytes in order. -/
def toList (bytes : ByteArray) : List UInt8 :=
  bytes.data.toList

/-- So many bytes from a position on, if there are that many. -/
def slice? (bytes : ByteArray) (start size : Nat) : Option (List UInt8) :=
  if start + size ≤ bytes.size then some (toList (bytes.extract start (start + size))) else none

/-- The bytes from a position up to the first zero, which has to be one of the next `room`. -/
def terminated? (bytes : ByteArray) : Nat → Nat → Option (List UInt8)
  | _, 0 => none
  | start, room + 1 =>
    match bytes[start]? with
    | none => none
    | some byte =>
      if byte = 0 then some [] else (terminated? bytes (start + 1) room).map (byte :: ·)

/-- The bytes with those from a position on replaced. -/
def overwrite (bytes : ByteArray) (start : Nat) (new : List UInt8) : ByteArray :=
  bytes.extract 0 start ++ new.toByteArray ++ bytes.extract (start + new.length) bytes.size

/-- The list view has one element for each byte. -/
theorem length_toList (bytes : ByteArray) : (toList bytes).length = bytes.size :=
  Array.length_toList

/-- A slice is a window of the list view. -/
theorem slice?_eq (bytes : ByteArray) (start size : Nat) :
    slice? bytes start size =
      if start + size ≤ bytes.size then some (((toList bytes).drop start).take size) else none := by
  simp only [slice?, toList, ByteArray.data_extract, Array.toList_extract,
    List.extract_eq_take_drop, Nat.add_sub_cancel_left]

/-- Overwriting splices the new bytes into the list view. -/
theorem toList_overwrite (bytes : ByteArray) (start : Nat) (new : List UInt8) :
    toList (overwrite bytes start new) =
      (toList bytes).take start ++ new ++ (toList bytes).drop (start + new.length) := by
  have rest : ((toList bytes).drop (start + new.length)).take (bytes.size - (start + new.length)) =
      (toList bytes).drop (start + new.length) :=
    List.take_of_length_le (by simp [length_toList])
  rw [toList] at rest
  simp only [overwrite, toList, ByteArray.data_append, ByteArray.data_extract,
    List.data_toByteArray, Array.toList_append, Array.toList_extract, List.extract_eq_take_drop,
    List.drop_zero, Nat.sub_zero, rest]

end BootConfig.Bytes
