import Mathlib.Tactic.SplitIfs
import BootConfig.Proofs.Elf.Reading

/-!
# Fields of an image

A number that is read is the one whose bytes stand at its offset, and it is read exactly if these
bytes lie in the image. So a section header is read exactly if each of its fields in use does, and
the headers of a table are if this holds of each of them.
-/

namespace BootConfig.Elf

/-- Steps fail where the first one is refused. -/
theorem ite_bind_eq {α β : Type} {p : Prop} [Decidable p] (value : α) (e : Error)
    (next : α → Except Error β) :
    ((if p then .ok value else .error e) >>= next) = if p then next value else .error e := by
  split <;> rfl

private theorem mapM_eq_error {α β : Type} {f : α → Except Error β} {l : List α} {e : Error}
    (hcause : ∀ a ∈ l, ∀ cause, f a = .error cause → cause = e)
    (h : ∃ a ∈ l, ∃ cause, f a = .error cause) : l.mapM f = .error e := by
  induction l with
  | nil =>
    obtain ⟨a, hmem, -⟩ := h
    cases hmem
  | cons a rest ih =>
    rw [List.mapM_cons]
    cases ha : f a with
    | error cause =>
      rw [hcause a List.mem_cons_self cause ha]
      rfl
    | ok b =>
      have hrest : ∃ x ∈ rest, ∃ cause, f x = .error cause := by
        obtain ⟨x, hmem, cause, hx⟩ := h
        rcases List.mem_cons.mp hmem with rfl | hmem
        · cases ha.symm.trans hx
        · exact ⟨x, hmem, cause, hx⟩
      rw [ih (fun x hx ↦ hcause x (List.mem_cons_of_mem _ hx)) hrest]
      rfl

private theorem mapM_eq_ok {α β : Type} {f : α → Except Error β} {g : α → β} {l : List α}
    (h : ∀ a ∈ l, f a = .ok (g a)) : l.mapM f = .ok (l.map g) := by
  induction l with
  | nil => rfl
  | cons a rest ih =>
    rw [List.mapM_cons, h a List.mem_cons_self, ih fun x hx ↦ h x (List.mem_cons_of_mem _ hx)]
    rfl

namespace Content

variable (content : Content)

/-! ### Numbers -/

/-- The 16-bit number whose bytes stand at an offset. -/
def halfAt (offset : Nat) : UInt16 :=
  .ofNat (content.order.decode (((Bytes.toList content.bytes).drop offset).take 2))

/-- The 32-bit number whose bytes stand at an offset. -/
def wordAt (offset : Nat) : UInt32 :=
  .ofNat (content.order.decode (((Bytes.toList content.bytes).drop offset).take 4))

private theorem number_eq (offset size : Nat) :
    content.number offset size =
      if offset + size ≤ content.bytes.size then
        .ok (content.order.decode (((Bytes.toList content.bytes).drop offset).take size))
      else .error .truncated := by
  rw [number, slice, Bytes.slice?_eq]
  by_cases hin : offset + size ≤ content.bytes.size
  · simp only [if_pos hin, Except.map]
  · simp only [if_neg hin, Except.map]

/-- A 16-bit number is read if its bytes lie in the image. -/
theorem half_eq (offset : Nat) :
    content.half offset =
      if offset + 2 ≤ content.bytes.size then .ok (content.halfAt offset)
      else .error .truncated := by
  rw [half, number_eq]
  split <;> rfl

/-- A 32-bit number is read if its bytes lie in the image. -/
theorem word_eq (offset : Nat) :
    content.word offset =
      if offset + 4 ≤ content.bytes.size then .ok (content.wordAt offset)
      else .error .truncated := by
  rw [word, number_eq]
  split <;> rfl

/-! ### Section headers -/

/-- Where the fields of a section header start that are in use: name, address, offset, size, and the
size of an entry. Each of them has four bytes. -/
def sectionFields : List Nat := [0, 12, 16, 20, 36]

/-- The fields of the section header at an offset lie in the image. -/
def HoldsHeader (offset : Nat) : Prop :=
  ∀ field ∈ sectionFields, offset + field + 4 ≤ content.bytes.size

/-- The section that the header at an offset describes. -/
def headerAt (offset : Nat) : Section where
  nameIndex := content.wordAt offset
  address := content.wordAt (offset + 12)
  offset := content.wordAt (offset + 16)
  size := content.wordAt (offset + 20)
  entrySize := content.wordAt (offset + 36)

variable {content : Content} {start stride count : Nat}

private theorem holdsHeader_iff {offset : Nat} :
    content.HoldsHeader offset ↔ offset + 40 ≤ content.bytes.size := by
  simp only [HoldsHeader, sectionFields, List.forall_mem_cons, List.not_mem_nil, false_implies,
    implies_true, and_true]
  omega

private theorem sectionAt_eq (offset : Nat) :
    content.sectionAt offset =
      if offset + 40 ≤ content.bytes.size then .ok (content.headerAt offset)
      else .error .truncated := by
  simp only [sectionAt, word_eq, ite_bind_eq]
  split_ifs <;> first | rfl | omega

/-- The sections of a table are those that its headers describe. -/
theorem sections_of_holdsHeader
    (h : ∀ n, n < count → content.HoldsHeader (start + n * stride)) :
    content.sections start stride count =
      .ok ((List.range count).map fun n ↦ content.headerAt (start + n * stride)) := by
  apply mapM_eq_ok
  intro n hn
  rw [sectionAt_eq, if_pos (holdsHeader_iff.mp (h n (List.mem_range.mp hn)))]

/-- The sections of a table are refused if a field of one of its headers lies outside the image. -/
theorem sections_of_not_holdsHeader {n : Nat} (hn : n < count)
    (h : ¬content.HoldsHeader (start + n * stride)) :
    content.sections start stride count = .error .truncated := by
  apply mapM_eq_error
  · intro n _ cause hcause
    rw [sectionAt_eq] at hcause
    split at hcause
    · cases hcause
    · exact (Except.error.inj hcause).symm
  · rw [holdsHeader_iff] at h
    exact ⟨n, List.mem_range.mpr hn, .truncated, by rw [sectionAt_eq, if_neg h]⟩

end Content

end BootConfig.Elf
