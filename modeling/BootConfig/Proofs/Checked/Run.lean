import BootConfig.Bytes.Basic
import BootConfig.Bytes.Order

/-!
# Operations that may have no result

Sums and products that have to stay below a limit, quotients, shifts of a word, the first of some
bytes, numbers in a buffer, and parts of an image that are replaced. Where such an operation has no
result, the steps of which it is one end in a fault. A failure is another matter: steps that fail
for a cause answer with it. The rules say when an operation has a result, and that steps without a
fault one after the other have none.
-/

namespace BootConfig.Checked

/-- Why an operation has no result. -/
inductive Fault where
  /-- The sum or the product is not below the limit. -/
  | overflow
  /-- The divisor is zero. -/
  | zeroDivisor
  /-- The word is shifted by as many bits as it has, or by more. -/
  | wideShift
  /-- There are not as many bytes. -/
  | outOfRange
  /-- As many bytes cannot take the place of those that are there. -/
  | unlikeLength
  /-- The number does not fit into the bytes that are to store it. -/
  | unstorable
  deriving DecidableEq, Repr

/-- Steps that end in a fault or else in an answer, which is a result or the cause of a failure. -/
abbrev Run (ε α : Type) : Type :=
  ExceptT ε (Except Fault) α

variable {ε α β : Type}

namespace Run

/-- Ends in a fault. -/
def fault (cause : Fault) : Run ε α :=
  ExceptT.mk (.error cause)

/-- Steps come to an answer without a fault. -/
def Gives (run : Run ε α) (answer : Except ε α) : Prop :=
  ExceptT.run run = .ok answer

end Run

/-! ### Operations -/

/-- A sum below the limit. -/
def add (limit a b : Nat) : Run ε Nat :=
  if a + b < limit then return a + b else .fault .overflow

/-- A product below the limit. -/
def mul (limit a b : Nat) : Run ε Nat :=
  if a * b < limit then return a * b else .fault .overflow

/-- A quotient. -/
def div (a b : Nat) : Run ε Nat :=
  if b = 0 then .fault .zeroDivisor else return a / b

/-- A word without its last bits. -/
def shiftRight (word : UInt64) (bits : Nat) : Run ε UInt64 :=
  if bits < 64 then return word >>> .ofNat bits else .fault .wideShift

/-- The first of some bytes, so many of them. -/
def front (bytes : List UInt8) (length : Nat) : Run ε (List UInt8) :=
  if length ≤ bytes.length then return bytes.take length else .fault .outOfRange

/-- The number in the first bytes of a buffer. -/
def load (order : ByteOrder) (buffer : List UInt8) (width : Nat) : Run ε Nat :=
  return order.decode (← front buffer width)

/-- A buffer with a number in its first bytes, of which there are eight at most. -/
def store (order : ByteOrder) (buffer : List UInt8) (width value : Nat) : Run ε (List UInt8) :=
  if 1 ≤ width ∧ width ≤ 8 ∧ width ≤ buffer.length ∧ value < ByteOrder.bound width then
    return order.encode width value ++ buffer.drop width
  else .fault .unstorable

/-- The bytes with those from one position up to another replaced by as many. -/
def replace (bytes : ByteArray) (start stop : Nat) (new : List UInt8) : Run ε ByteArray :=
  if start ≤ stop ∧ stop ≤ bytes.size then
    if new.length = stop - start then return Bytes.overwrite bytes start new
    else .fault .unlikeLength
  else .fault .outOfRange

/-! ### Rules for steps -/

namespace Run

/-- A result is the answer. -/
theorem Gives.result (value : α) : Gives (pure value : Run ε α) (.ok value) :=
  rfl

/-- The cause of a failure is the answer. -/
theorem Gives.failure (e : ε) : Gives (throw e : Run ε α) (.error e) :=
  rfl

private theorem Gives.eq_mk {run : Run ε α} {answer : Except ε α} (h : run.Gives answer) :
    run = ExceptT.mk (.ok answer) :=
  h

/-- Steps give what further steps give from the result, and else the cause of the failure. -/
theorem Gives.bind {run : Run ε α} {answer : Except ε α} {next : α → Run ε β}
    {following : α → Except ε β} (h : run.Gives answer)
    (hn : ∀ value, answer = .ok value → (next value).Gives (following value)) :
    (run >>= next).Gives (answer >>= following) := by
  rw [h.eq_mk]
  cases answer with
  | error e => rfl
  | ok value => exact hn value rfl

/-- Steps with a result give what further steps give from it. -/
theorem Gives.bind_ok {run : Run ε α} {value : α} {next : α → Run ε β} {answer : Except ε β}
    (h : run.Gives (.ok value)) (hn : (next value).Gives answer) :
    (run >>= next).Gives answer := by
  rw [h.eq_mk]
  exact hn

/-- Steps that only make something of a result give what is made of it. -/
theorem Gives.bind_map {run : Run ε α} {answer : Except ε α} {next : α → Run ε β} {f : α → β}
    (h : run.Gives answer)
    (hn : ∀ value, answer = .ok value → (next value).Gives (.ok (f value))) :
    (run >>= next).Gives (answer.map f) := by
  have hmap : answer.map f = answer >>= fun value ↦ .ok (f value) := by cases answer <;> rfl
  rw [hmap]
  exact h.bind hn

/-- Steps for each element of a list give what answers for each of them are together. -/
theorem gives_mapM {l : List α} {f : α → Run ε β} {g : α → Except ε β}
    (h : ∀ a ∈ l, (f a).Gives (g a)) : (l.mapM f).Gives (l.mapM g) := by
  induction l with
  | nil => exact .result []
  | cons a rest ih =>
    rw [List.mapM_cons, List.mapM_cons]
    apply (h a List.mem_cons_self).bind
    intro b _
    apply (ih fun x hx ↦ h x (List.mem_cons_of_mem a hx)).bind
    intro bs _
    exact .result (b :: bs)

end Run

/-! ### Rules for operations -/

/-- A sum below the limit is the answer. -/
theorem gives_add {limit a b : Nat} (h : a + b < limit) :
    Run.Gives (add limit a b : Run ε Nat) (.ok (a + b)) := by
  rw [add, if_pos h]
  exact .result _

/-- A product below the limit is the answer. -/
theorem gives_mul {limit a b : Nat} (h : a * b < limit) :
    Run.Gives (mul limit a b : Run ε Nat) (.ok (a * b)) := by
  rw [mul, if_pos h]
  exact .result _

/-- A quotient by another number than zero is the answer. -/
theorem gives_div {a b : Nat} (h : b ≠ 0) :
    Run.Gives (div a b : Run ε Nat) (.ok (a / b)) := by
  rw [div, if_neg h]
  exact .result _

/-- A word that is shifted by fewer bits than it has is the answer. -/
theorem gives_shiftRight {word : UInt64} {bits : Nat} (h : bits < 64) :
    Run.Gives (shiftRight word bits : Run ε UInt64) (.ok (word >>> .ofNat bits)) := by
  rw [shiftRight, if_pos h]
  exact .result _

/-- The first of enough bytes are the answer. -/
theorem gives_front {bytes : List UInt8} {length : Nat} (h : length ≤ bytes.length) :
    Run.Gives (front bytes length : Run ε (List UInt8)) (.ok (bytes.take length)) := by
  rw [front, if_pos h]
  exact .result _

/-- The number that a whole buffer stores is the answer. -/
theorem gives_load (order : ByteOrder) (buffer : List UInt8) :
    Run.Gives (load order buffer buffer.length : Run ε Nat) (.ok (order.decode buffer)) := by
  apply (gives_front (Nat.le_refl _)).bind_ok
  rw [List.take_length]
  exact .result _

/-- A number that fits into a buffer of one to eight bytes is stored in all of them. -/
theorem gives_store (order : ByteOrder) {buffer : List UInt8} {width value : Nat}
    (hlen : buffer.length = width) (hone : 1 ≤ width) (height : width ≤ 8)
    (hfit : value < ByteOrder.bound width) :
    Run.Gives (store order buffer width value : Run ε (List UInt8))
      (.ok (order.encode width value)) := by
  subst hlen
  rw [store, if_pos ⟨hone, height, Nat.le_refl _, hfit⟩, List.drop_length, List.append_nil]
  exact .result _

/-- Bytes that are replaced by as many are overwritten. -/
theorem gives_replace {bytes : ByteArray} {start : Nat} {new : List UInt8}
    (h : start + new.length ≤ bytes.size) :
    Run.Gives (replace bytes start (start + new.length) new : Run ε ByteArray)
      (.ok (Bytes.overwrite bytes start new)) := by
  rw [replace, if_pos ⟨Nat.le_add_right _ _, h⟩, if_pos (Nat.add_sub_cancel_left ..).symm]
  exact .result _

/-- A sum that is not below the limit ends in a fault. -/
example : (add 8 5 3 : Run Empty Nat) = .fault .overflow := rfl

end BootConfig.Checked
