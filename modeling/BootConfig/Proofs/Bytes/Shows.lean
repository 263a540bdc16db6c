import BootConfig.Proofs.Bytes.Window

/-!
# Bytes at a position

What it means that some bytes stand at a position among others. What stands there as a whole stands
there part by part, and is what a slice or a name that is read from there shows.
-/

namespace BootConfig.Bytes

/-- The list of bytes stands at a position. -/
def Shows (bytes : ByteArray) (start : Nat) (l : List UInt8) : Prop :=
  ∃ front back, toList bytes = front ++ l ++ back ∧ front.length = start

/-- A list of bytes stands at the start of the bytes made of it. -/
theorem shows_self (l : List UInt8) : Shows ⟨l.toArray⟩ 0 l :=
  ⟨[], [], by simp [toList], rfl⟩

namespace Shows

variable {bytes : ByteArray} {start : Nat} {l m : List UInt8}

/-- The first of two parts stands where the whole does. -/
theorem left (h : Shows bytes start (l ++ m)) : Shows bytes start l := by
  obtain ⟨front, back, hb, hf⟩ := h
  exact ⟨front, m ++ back, by rw [hb]; simp only [List.append_assoc], hf⟩

/-- The second of two parts stands behind the first. -/
theorem right (h : Shows bytes start (l ++ m)) : Shows bytes (start + l.length) m := by
  obtain ⟨front, back, hb, hf⟩ := h
  exact ⟨front ++ l, back, by rw [hb]; simp only [List.append_assoc],
    by rw [List.length_append, hf]⟩

/-- What stands at a position ends within the bytes. -/
theorem le_size (h : Shows bytes start l) : start + l.length ≤ bytes.size := by
  obtain ⟨front, back, hb, hf⟩ := h
  rw [← length_toList, hb]
  simp only [List.length_append]
  omega

/-- Each byte of what stands at a position is one of the bytes. -/
theorem getElem?_eq (h : Shows bytes start l) {i : Nat} (hi : i < l.length) :
    bytes[start + i]? = l[i]? := by
  obtain ⟨front, back, hb, hf⟩ := h
  rw [← getElem?_toList, hb, List.append_assoc, List.getElem?_append_right (by omega),
    List.getElem?_append_left (by omega)]
  congr 1
  omega

/-- The first byte of what stands at a position is the one there. -/
theorem head {byte : UInt8} (h : Shows bytes start (byte :: l)) : bytes[start]? = some byte :=
  h.getElem?_eq (i := 0) (by rw [List.length_cons]; omega)

/-- A slice shows what stands at its position. -/
theorem slice?_eq (h : Shows bytes start l) : slice? bytes start l.length = some l := by
  rw [slice?_eq_some_iff]
  exact ⟨h.le_size, rfl, fun i hi ↦ (h.getElem?_eq hi).symm⟩

/-- Bytes stand at a position if a slice from there shows them. -/
theorem of_slice? {size : Nat} (h : slice? bytes start size = some l) : Shows bytes start l := by
  rw [Bytes.slice?_eq] at h
  split at h
  · next hin =>
    cases h
    refine ⟨(toList bytes).take start, (toList bytes).drop (start + size), ?_, ?_⟩
    · rw [← List.drop_drop, List.append_assoc, List.take_append_drop, List.take_append_drop]
    · rw [List.length_take, length_toList]
      omega
  · cases h

/-- Bytes stand at a position if each of them is the one there. -/
theorem of_getElem? (hin : start + l.length ≤ bytes.size)
    (h : ∀ i, i < l.length → l[i]? = bytes[start + i]?) : Shows bytes start l :=
  of_slice? ((slice?_eq_some_iff _ _ _ _).mpr ⟨hin, rfl, h⟩)

/-- Nothing stands at any position up to the end. -/
theorem nil (h : start ≤ bytes.size) : Shows bytes start [] :=
  of_getElem? h fun i hi ↦ absurd hi (Nat.not_lt_zero i)

/-- A byte and those that stand behind it stand at its position. -/
theorem cons {byte : UInt8} (h : Shows bytes (start + 1) l) (hbyte : bytes[start]? = some byte) :
    Shows bytes start (byte :: l) := by
  have hin := h.le_size
  apply of_getElem?
  · rw [List.length_cons]
    omega
  · intro i hi
    cases i with
    | zero => exact hbyte.symm
    | succ i =>
      rw [List.length_cons] at hi
      rw [List.getElem?_cons_succ, ← h.getElem?_eq (by omega)]
      congr 1
      omega

/-- The rest of what stands at a position stands behind its first bytes. -/
theorem drop (h : Shows bytes start l) {n : Nat} (hn : n ≤ l.length) :
    Shows bytes (start + n) (l.drop n) := by
  rw [← List.take_append_drop n l] at h
  have hr := h.right
  rwa [List.length_take, Nat.min_eq_left hn] at hr

/-- The first bytes of what stands at a position stand there. -/
theorem take (h : Shows bytes start l) (n : Nat) : Shows bytes start (l.take n) := by
  rw [← List.take_append_drop n l] at h
  exact h.left

/-- Each of several parts stands behind those before it. -/
theorem flatten {parts : List (List UInt8)} (h : Shows bytes start parts.flatten) {n : Nat}
    (hn : parts[n]? = some l) : Shows bytes (start + (parts.take n).flatten.length) l := by
  obtain ⟨hlt, hl⟩ := List.getElem?_eq_some_iff.mp hn
  rw [← List.take_append_drop n parts, List.flatten_append, List.drop_eq_getElem_cons hlt, hl,
    List.flatten_cons] at h
  exact h.right.left

/-- A name that stands at a position with a zero byte behind it is the one read there. -/
theorem terminated?_eq {name rest : List UInt8} (h : Shows bytes start (name ++ 0 :: rest))
    (hname : 0 ∉ name) {room : Nat} (hroom : name.length < room) :
    terminated? bytes start room = some name := by
  induction name generalizing start room with
  | nil =>
    obtain ⟨room, rfl⟩ := Nat.exists_eq_add_one.mpr hroom
    have hz : bytes[start]? = some 0 := h.head
    simp only [terminated?, hz, if_true]
  | cons byte name ih =>
    obtain ⟨room, rfl⟩ := Nat.exists_eq_add_one.mpr (Nat.lt_of_le_of_lt (Nat.zero_le _) hroom)
    have hb : bytes[start]? = some byte := h.head
    have hne : byte ≠ 0 := fun he ↦ hname (by rw [he]; exact List.mem_cons_self)
    have hnext : Shows bytes (start + 1) (name ++ 0 :: rest) := h.drop (n := 1) (by simp)
    rw [List.length_cons] at hroom
    simp only [terminated?, hb, if_neg hne]
    rw [ih hnext (fun hm ↦ hname (List.mem_cons_of_mem _ hm)) (by omega)]
    rfl

end Shows

/-! ### Names -/

variable {bytes : ByteArray} {start room : Nat}

/-- A name is read exactly if it stands at the position and holds no zero byte, and a zero byte that
is near enough stands behind it. -/
theorem terminated?_eq_some_iff {name : List UInt8} :
    terminated? bytes start room = some name ↔
      0 ∉ name ∧ name.length < room ∧ Shows bytes start (name ++ [0]) := by
  constructor
  · intro h
    induction room generalizing start name with
    | zero => cases h
    | succ room ih =>
      rw [terminated?] at h
      cases hbyte : bytes[start]? with
      | none => simp [hbyte] at h
      | some byte =>
        simp only [hbyte] at h
        split at h
        · next hzero =>
          cases h
          subst hzero
          exact ⟨List.not_mem_nil, by simp, (Shows.nil (lt_size_of_getElem? hbyte)).cons hbyte⟩
        · next hzero =>
          obtain ⟨rest, hrest, rfl⟩ := Option.map_eq_some_iff.mp h
          obtain ⟨hmem, hlength, hshows⟩ := ih hrest
          refine ⟨?_, by simpa using hlength, hshows.cons hbyte⟩
          rw [List.mem_cons, not_or]
          exact ⟨fun he ↦ hzero he.symm, hmem⟩
  · rintro ⟨hmem, hlength, hshows⟩
    exact hshows.terminated?_eq hmem hlength

/-- Where there are enough bytes, no name is read exactly if none of them is zero. -/
theorem terminated?_eq_none_iff (hin : start + room ≤ bytes.size) :
    terminated? bytes start room = none ↔ ∀ i < room, bytes[start + i]? ≠ some 0 := by
  induction room generalizing start with
  | zero => simp [terminated?]
  | succ room ih =>
    obtain ⟨byte, hbyte⟩ : ∃ byte, bytes[start]? = some byte :=
      ⟨_, getElem?_pos bytes start (by omega)⟩
    have hnext : _ ↔ ∀ i < room, bytes[start + 1 + i]? ≠ some 0 := ih (by omega)
    simp only [Nat.add_assoc, Nat.add_comm 1] at hnext
    rw [terminated?, Nat.forall_lt_succ_left', hbyte]
    by_cases hzero : byte = 0
    · simp [hbyte, hzero]
    · simp [hbyte, hzero, hnext]

/-- What is read of bytes that stand at a position are those before the first zero byte. -/
theorem Shows.terminated?_eq_findIdx? {l : List UInt8} (h : Shows bytes start l) :
    terminated? bytes start l.length = (l.findIdx? (· = 0)).map l.take := by
  induction l generalizing start with
  | nil => rfl
  | cons byte rest ih =>
    have hbyte : bytes[start]? = some byte := h.head
    have hrest : Shows bytes (start + 1) rest := h.drop (n := 1) (by simp)
    rw [List.length_cons, terminated?, hbyte, List.findIdx?_cons]
    by_cases hzero : byte = 0
    · simp [hzero]
    · simp only [if_neg hzero, decide_eq_false hzero, ih hrest, Bool.false_eq_true,
        if_false, Option.map_map]
      rfl

/-! ### Parts of one width -/

/-- Parts of one width, one after the other, have as many bytes as the width says. -/
theorem length_flatten_of_width {parts : List (List UInt8)} {width : Nat}
    (h : ∀ part ∈ parts, part.length = width) : parts.flatten.length = parts.length * width := by
  have hlengths : parts.map List.length = parts.map fun _ ↦ width := List.map_congr_left h
  rw [List.length_flatten, hlengths, List.map_const', List.sum_replicate_nat]

/-- Of parts of one width, each stands at its number times the width. -/
theorem Shows.flatten_of_width {bytes : ByteArray} {start : Nat} {parts : List (List UInt8)}
    {width : Nat} (h : Shows bytes start parts.flatten)
    (hwidth : ∀ part ∈ parts, part.length = width) {n : Nat} {l : List UInt8}
    (hn : parts[n]? = some l) : Shows bytes (start + n * width) l := by
  have hl := h.flatten hn
  have hlt := (List.getElem?_eq_some_iff.mp hn).1
  rwa [length_flatten_of_width fun p hp ↦ hwidth p (List.mem_of_mem_take hp), List.length_take,
    Nat.min_eq_left (Nat.le_of_lt hlt)] at hl

end BootConfig.Bytes
