import BootConfig.Bytes.Basic

/-!
# What a window shows

Slices, names and overwritten bytes, described position by position. Bytes that retain others at
some positions show the same in every window of these positions, wherever they differ besides.
-/

namespace BootConfig.Bytes

/-- The list view and the packed bytes have the same byte at every position. -/
theorem getElem?_toList (bytes : ByteArray) (i : Nat) : (toList bytes)[i]? = bytes[i]? := by
  by_cases h : i < bytes.size
  · rw [getElem?_pos bytes i h, List.getElem?_eq_getElem (by rw [length_toList]; exact h)]
    rfl
  · rw [getElem?_neg bytes i h, List.getElem?_eq_none (by rw [length_toList]; omega)]

/-- Bytes with the same list view are the same. -/
theorem toList_inj {a b : ByteArray} (h : toList a = toList b) : a = b :=
  ByteArray.ext (Array.toList_inj.mp h)

/-- Bytes are the same if they are at every position. -/
theorem ext_getElem? {a b : ByteArray} (h : ∀ i : Nat, a[i]? = b[i]?) : a = b := by
  apply toList_inj
  apply List.ext_getElem?
  intro i
  rw [getElem?_toList, getElem?_toList, h]

/-- A byte that is there lies at a position of the bytes. -/
theorem lt_size_of_getElem? {bytes : ByteArray} {i : Nat} {byte : UInt8}
    (h : bytes[i]? = some byte) : i < bytes.size := by
  by_cases hi : i < bytes.size
  · exact hi
  · simp [getElem?_neg bytes i hi] at h

/-- Appended bytes leave those before them alone. -/
theorem getElem?_append_left (bytes extra : ByteArray) (i : Nat) (h : i < bytes.size) :
    (bytes ++ extra)[i]? = bytes[i]? := by
  rw [getElem?_pos bytes i h,
    getElem?_pos (bytes ++ extra) i (by rw [ByteArray.size_append]; omega),
    ByteArray.getElem_append_left h]

/-- A slice is there exactly if it ends within the bytes, and then shows each of them. -/
theorem slice?_eq_some_iff (bytes : ByteArray) (start size : Nat) (shown : List UInt8) :
    slice? bytes start size = some shown ↔
      start + size ≤ bytes.size ∧ shown.length = size ∧
        ∀ i, i < size → shown[i]? = bytes[start + i]? := by
  rw [slice?_eq]
  split
  · next hin =>
    constructor
    · intro h
      rw [Option.some.injEq] at h
      subst h
      refine ⟨hin, ?_, ?_⟩
      · rw [List.length_take, List.length_drop, length_toList]
        omega
      · intro i hi
        rw [List.getElem?_take_of_lt hi, List.getElem?_drop, getElem?_toList]
    · rintro ⟨-, hlen, hshown⟩
      rw [Option.some.injEq]
      apply List.ext_getElem?
      intro i
      by_cases hi : i < size
      · rw [List.getElem?_take_of_lt hi, List.getElem?_drop, getElem?_toList, hshown i hi]
      · rw [List.getElem?_eq_none (by rw [List.length_take]; omega),
          List.getElem?_eq_none (by omega)]
  · next hout => simp [hout]

/-- A slice is refused exactly if it does not end within the bytes. -/
theorem slice?_eq_none_iff (bytes : ByteArray) (start size : Nat) :
    slice? bytes start size = none ↔ bytes.size < start + size := by
  rw [slice?_eq]
  split
  · next hin => simp; omega
  · next hout => simp; omega

/-- Overwriting one of three parts by as many bytes leaves the parts around it alone. -/
theorem toList_overwrite_of_eq {bytes : ByteArray} {front old new back : List UInt8}
    (h : toList bytes = front ++ old ++ back) (hlen : old.length = new.length) :
    toList (overwrite bytes front.length new) = front ++ new ++ back := by
  rw [toList_overwrite, h, ← hlen, ← List.length_append, List.drop_left, List.append_assoc front,
    List.take_left]

/-- Overwriting within the bytes keeps their number. -/
theorem size_overwrite (bytes : ByteArray) (start : Nat) (new : List UInt8)
    (h : start + new.length ≤ bytes.size) : (overwrite bytes start new).size = bytes.size := by
  rw [← length_toList, toList_overwrite]
  simp only [List.length_append, List.length_take, List.length_drop, length_toList]
  omega

/-- After overwriting, the window shows the new bytes and all else what it did. -/
theorem getElem?_overwrite (bytes : ByteArray) (start : Nat) (new : List UInt8) (i : Nat)
    (h : start + new.length ≤ bytes.size) :
    (overwrite bytes start new)[i]? =
      if start ≤ i ∧ i < start + new.length then new[i - start]? else bytes[i]? := by
  have hlen : ((toList bytes).take start).length = start := by
    rw [List.length_take, length_toList]
    omega
  rw [← getElem?_toList, toList_overwrite, List.append_assoc, List.getElem?_append, hlen]
  by_cases hi : i < start
  · rw [if_pos hi, if_neg (by omega), List.getElem?_take_of_lt hi, getElem?_toList]
  · rw [if_neg hi, List.getElem?_append]
    by_cases hn : i - start < new.length
    · rw [if_pos hn, if_pos (by omega)]
    · rw [if_neg hn, if_neg (by omega), List.getElem?_drop, getElem?_toList]
      congr 1
      omega

/-- The window that was overwritten shows the new bytes. -/
theorem slice?_overwrite (bytes : ByteArray) (start : Nat) (new : List UInt8)
    (h : start + new.length ≤ bytes.size) :
    slice? (overwrite bytes start new) start new.length = some new := by
  rw [slice?_eq_some_iff, size_overwrite bytes start new h]
  refine ⟨h, rfl, ?_⟩
  intro i hi
  rw [getElem?_overwrite bytes start new _ h, if_pos (by omega), Nat.add_sub_cancel_left]

/-- Overwriting does not reach bytes appended behind the window. -/
theorem overwrite_append (bytes extra : ByteArray) (start : Nat) (new : List UInt8)
    (h : start + new.length ≤ bytes.size) :
    overwrite (bytes ++ extra) start new = overwrite bytes start new ++ extra := by
  have hview (a b : ByteArray) : toList (a ++ b) = toList a ++ toList b := by
    rw [toList, ByteArray.data_append, Array.toList_append]
    rfl
  apply toList_inj
  rw [toList_overwrite, hview, hview, toList_overwrite,
    List.take_append_of_le_length (by rw [length_toList]; omega),
    List.drop_append_of_le_length (by rw [length_toList]; omega)]
  simp only [List.append_assoc]

/-! ### Bytes that retain others -/

/-- Every position of a window is among those in question. -/
def Covers (P : Nat → Prop) (start size : Nat) : Prop :=
  ∀ i, start ≤ i → i < start + size → P i

/-- With a window, every window inside it is covered. -/
theorem Covers.mono {P : Nat → Prop} {start size first count : Nat} (h : Covers P start size)
    (hstart : start ≤ first) (hstop : first + count ≤ start + size) : Covers P first count :=
  fun i hfirst hlast ↦ h i (by omega) (by omega)

/-- The second bytes are no fewer than the first and have the same at the positions in question. -/
structure Retains (P : Nat → Prop) (a b : ByteArray) : Prop where
  size_le : a.size ≤ b.size
  getElem?_eq : ∀ i, P i → i < a.size → b[i]? = a[i]?

/-- Bytes with more behind them retain all of their own. -/
theorem retains_append (P : Nat → Prop) (bytes extra : ByteArray) :
    Retains P bytes (bytes ++ extra) where
  size_le := by rw [ByteArray.size_append]; omega
  getElem?_eq := fun i _ hi ↦ getElem?_append_left bytes extra i hi

/-- Among bytes of one size, what retains is retained. -/
theorem Retains.symm {P : Nat → Prop} {a b : ByteArray} (h : Retains P a b)
    (hsize : b.size = a.size) : Retains P b a where
  size_le := by omega
  getElem?_eq := fun i hp hi ↦ (h.getElem?_eq i hp (by omega)).symm

/-- Overwriting a window retains the bytes at all positions that it does not touch. -/
theorem Retains.overwrite {P : Nat → Prop} {a b : ByteArray} (h : Retains P a b)
    {start : Nat} {new : List UInt8} (hin : start + new.length ≤ b.size)
    (hfree : ∀ i, start ≤ i → i < start + new.length → ¬ P i) :
    Retains P a (overwrite b start new) where
  size_le := by rw [size_overwrite b start new hin]; exact h.size_le
  getElem?_eq := by
    intro i hp hi
    rw [getElem?_overwrite b start new i hin,
      if_neg (fun hw ↦ hfree i hw.1 hw.2 hp), h.getElem?_eq i hp hi]

variable {P : Nat → Prop} {a b : ByteArray}

/-- A slice at positions that are retained is retained. -/
theorem Retains.slice? (h : Retains P a b) {start size : Nat} (hp : Covers P start size)
    {shown : List UInt8} (hs : slice? a start size = some shown) :
    slice? b start size = some shown := by
  have hsize := h.size_le
  rw [slice?_eq_some_iff] at hs ⊢
  obtain ⟨hin, hlen, hshown⟩ := hs
  refine ⟨by omega, hlen, ?_⟩
  intro i hi
  rw [hshown i hi, h.getElem?_eq (start + i) (hp _ (by omega) (by omega)) (by omega)]

/-- A name at positions that are retained is retained. -/
theorem Retains.terminated? (h : Retains P a b) {start room : Nat} (hp : Covers P start room)
    {name : List UInt8} (hn : terminated? a start room = some name) :
    terminated? b start room = some name := by
  induction room generalizing start name with
  | zero => simp [Bytes.terminated?] at hn
  | succ room ih =>
    rw [Bytes.terminated?] at hn ⊢
    cases ha : a[start]? with
    | none => simp [ha] at hn
    | some byte =>
      rw [h.getElem?_eq start (hp _ (by omega) (by omega)) (lt_size_of_getElem? ha), ha]
      simp only [ha] at hn ⊢
      split
      · next hz => simpa [hz] using hn
      · next hz =>
        rw [if_neg hz, Option.map_eq_some_iff] at hn
        obtain ⟨rest, hrest, rfl⟩ := hn
        rw [ih (hp.mono (by omega) (by omega)) hrest]
        rfl

end BootConfig.Bytes
