import BootConfig.Bytes.Order

/-!
# Numbers and the bytes that store them

A number that fits into a width is the one that its encoding stores, and bytes are the encoding of
the number that they store. So bytes of one width and the numbers that fit into it are the same in
either order.
-/

namespace BootConfig.ByteOrder

private theorem bound_succ (width : Nat) : bound (width + 1) = 256 * bound width :=
  Nat.mul_comm _ _

private theorem decodeLittle_encodeLittle (width value : Nat) :
    decodeLittle (encodeLittle width value) = value % bound width := by
  induction width generalizing value with
  | zero => exact (Nat.mod_one value).symm
  | succ width ih =>
    have hbyte : (UInt8.ofNat (value % 256)).toNat = value % 256 := by
      rw [UInt8.toNat_ofNat']
      omega
    rw [encodeLittle, decodeLittle, ih, hbyte, bound_succ, Nat.mod_mul]

/-- In either order, what is encoded in a width that it fits into is stored. -/
theorem decode_encode (order : ByteOrder) {width value : Nat} (h : value < bound width) :
    order.decode (order.encode width value) = value := by
  have hlittle := decodeLittle_encodeLittle width value
  rw [Nat.mod_eq_of_lt h] at hlittle
  cases order with
  | little => exact hlittle
  | big =>
    rw [decode, encode, List.reverse_reverse]
    exact hlittle

private theorem decodeLittle_lt (bytes : List UInt8) : decodeLittle bytes < bound bytes.length := by
  induction bytes with
  | nil => exact Nat.zero_lt_one
  | cons byte rest ih =>
    have hbyte : byte.toNat < 256 := byte.toNat_lt
    rw [decodeLittle, List.length_cons, bound_succ]
    omega

private theorem encodeLittle_decodeLittle (bytes : List UInt8) :
    encodeLittle bytes.length (decodeLittle bytes) = bytes := by
  induction bytes with
  | nil => rfl
  | cons byte rest ih =>
    have hbyte : byte.toNat < 256 := byte.toNat_lt
    have hlow : (byte.toNat + 256 * decodeLittle rest) % 256 = byte.toNat := by omega
    have hhigh : (byte.toNat + 256 * decodeLittle rest) / 256 = decodeLittle rest := by omega
    rw [decodeLittle, List.length_cons, encodeLittle, hlow, hhigh, ih, UInt8.ofNat_toNat]

/-- In either order, bytes store a number that fits into as many. -/
theorem decode_lt (order : ByteOrder) (bytes : List UInt8) :
    order.decode bytes < bound bytes.length := by
  cases order with
  | little => exact decodeLittle_lt bytes
  | big =>
    rw [decode, ← List.length_reverse]
    exact decodeLittle_lt bytes.reverse

/-- In either order, bytes encode the number that they store. -/
theorem encode_decode (order : ByteOrder) (bytes : List UInt8) :
    order.encode bytes.length (order.decode bytes) = bytes := by
  cases order with
  | little => exact encodeLittle_decodeLittle bytes
  | big =>
    rw [decode, encode, ← List.length_reverse, encodeLittle_decodeLittle, List.reverse_reverse]

/-- More bytes store at least as many numbers. -/
theorem bound_le_bound {width other : Nat} (h : width ≤ other) : bound width ≤ bound other :=
  Nat.pow_le_pow_right (by decide) h

private theorem shiftRight_eq_div_bound (value width : Nat) :
    value >>> (width * 8) = value / bound width := by
  induction width with
  | zero => exact (Nat.div_one value).symm
  | succ width ih =>
    rw [Nat.succ_mul, Nat.shiftRight_add, ih, bound_succ, Nat.mul_comm, ← Nat.div_div_eq_div_mul]
    exact Nat.shiftRight_eq_div_pow _ 8

/-- A number fits into a width exactly if nothing is left when it is shifted out. -/
theorem shiftRight_eq_zero_iff (value width : Nat) :
    value >>> (width * 8) = 0 ↔ value < bound width := by
  rw [shiftRight_eq_div_bound, Nat.div_eq_zero_iff]
  have hpos : bound width ≠ 0 := Nat.pos_iff_ne_zero.mp (Nat.pow_pos (by decide))
  simp [hpos]

end BootConfig.ByteOrder
