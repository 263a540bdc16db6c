import BootConfig.Files.Buffer
import BootConfig.Proofs.Files.Perform

/-!
# What writing by way of a buffer leaves

What a file holds and what waits to be written to it make up, one behind the other, all that was
written. A file may take a part of what it is given, or refuse it; what it holds is then still the
first part of what was written. An account of a file says in which states it holds which bytes, and
for which cause it was the first to refuse some.
-/

namespace BootConfig.Files

variable {σ handle : Type}

/-- A file does not take a single byte: the failure that this is, for bytes that wait and for those
that do not. -/
def IsStuck (cause : Error) : Prop :=
  cause = .notFlushed ∨ cause = .noRoom

section Account

variable (Holds : Option Error → σ → ByteArray → Prop) (first : Option Error)

/-- A file that holds some bytes takes the first of others, or none, or refuses them. -/
inductive Takes (held bytes : ByteArray) : Except Error Nat × σ → Prop where
  | some {count : Nat} {s : σ} (hpos : 0 < count) (hle : count ≤ bytes.size)
      (h : Holds first s (held ++ bytes.extract 0 count)) : Takes held bytes (.ok count, s)
  | none {s : σ} (h : ∀ cause, IsStuck cause → Holds (first.or (some cause)) s held) :
      Takes held bytes (.ok 0, s)
  | refused {cause : Error} {s : σ} (h : Holds (first.or (some cause)) s held) :
      Takes held bytes (.error cause, s)

/-- Bytes are written to a file as a whole, or a part of them is left. -/
inductive Writes (held bytes : ByteArray) : (Except Error Unit × ByteArray) × σ → Prop where
  | all {s : σ} (h : Holds first s (held ++ bytes)) :
      Writes held bytes ((.ok (), ByteArray.empty), s)
  | part {cause : Error} {taken left : ByteArray} {s : σ} (hsplit : taken ++ left = bytes)
      (hleft : left.size ≠ 0) (h : Holds (first.or (some cause)) s (held ++ taken)) :
      Writes held bytes ((.error cause, left), s)

/-- What a file holds and what waits to be written to it make up the given bytes. -/
def Pending (written : ByteArray) (s : ByteArray × σ) : Prop :=
  ∃ held, Holds first s.2 held ∧ held ++ s.1 = written

/-- Bytes that are written by way of a buffer are on the file or wait behind what it holds, if none
were refused. If some were, the first part of them is there or waits. They are more then than the
buffer has room for. -/
inductive Reaches (written : ByteArray) : Except Error Unit × (ByteArray × σ) → Prop where
  | all {s : ByteArray × σ} (h : Pending Holds first written s) : Reaches written (.ok (), s)
  | part {cause : Error} {front back : ByteArray} {s : ByteArray × σ}
      (hsplit : front ++ back = written) (hlate : bufferSize ≤ written.size)
      (h : Pending Holds (first.or (some cause)) front s) : Reaches written (.error cause, s)

end Account

/-- An account is kept of what a file holds: whatever is written to it in a state in which it holds
some bytes, these stay, and those that it takes stand behind them. -/
def Accounts (m : Type → Type) [Monad m] [Stateful m σ] [Store m handle] (file : handle)
    (Holds : Option Error → σ → ByteArray → Prop) : Prop :=
  ∀ first s held bytes, bytes.size ≠ 0 → Holds first s held →
    Takes Holds first held bytes (perform (Store.write file bytes : ExceptT Error m Nat) s)

section Writing

variable {m : Type → Type} [Monad m] [Stateful m σ] [Store m handle]
  {file : handle} {Holds : Option Error → σ → ByteArray → Prop} {first : Option Error}
  {held bytes written : ByteArray} {s : σ}

private theorem Writes.behind {front back : ByteArray}
    {outcome : (Except Error Unit × ByteArray) × σ}
    (h : Writes Holds first (held ++ front) back outcome) (hsplit : front ++ back = bytes) :
    Writes Holds first held bytes outcome := by
  subst hsplit
  cases h with
  | all h =>
    rw [ByteArray.append_assoc] at h
    exact .all h
  | part hsplit hleft h =>
    rw [ByteArray.append_assoc] at h
    refine .part ?_ hleft h
    rw [ByteArray.append_assoc, hsplit]

private theorem extract_append_rest {count : Nat} (h : count ≤ bytes.size) :
    bytes.extract 0 count ++ bytes.extract count bytes.size = bytes := by
  rw [ByteArray.extract_append_extract, Nat.zero_min, Nat.max_eq_right h,
    ByteArray.extract_zero_size]

/-- Bytes that are written to a file part by part are all taken in the end, or a part of them is
refused. -/
theorem writes_writeAll (haccount : Accounts m file Holds) {stuck : Error} (hstuck : IsStuck stuck)
    (h : Holds first s held) :
    Writes Holds first held bytes
      (Stateful.run (writeAll stuck file bytes : m (Except Error Unit × ByteArray)) s) := by
  induction hsize : bytes.size using Nat.strongRecOn generalizing bytes held s with
  | ind size ih =>
    rw [writeAll]
    split
    · next hzero =>
      rw [Stateful.run_pure, ByteArray.size_eq_zero_iff.mp hzero]
      exact .all (by rwa [ByteArray.append_empty])
    · next hne =>
      have htakes := haccount first s held bytes hne h
      rw [perform] at htakes
      rw [Stateful.run_bind]
      generalize Stateful.run (Store.write file bytes : ExceptT Error m Nat).run s = outcome
        at htakes ⊢
      cases htakes with
      | @some count after hpos hle hheld =>
        have hsmaller : (bytes.extract count bytes.size).size < size := by
          rw [ByteArray.size_extract]
          omega
        dsimp only
        rw [if_neg (Nat.ne_of_gt hpos)]
        exact (ih _ hsmaller hheld rfl).behind (extract_append_rest hle)
      | none hheld =>
        dsimp only
        rw [if_pos rfl, Stateful.run_pure]
        refine .part ByteArray.empty_append hne ?_
        rw [ByteArray.append_empty]
        exact hheld stuck hstuck
      | refused hheld =>
        dsimp only
        rw [Stateful.run_pure]
        refine .part ByteArray.empty_append hne ?_
        rwa [ByteArray.append_empty]

variable {waiting : ByteArray}

/-- What waits is written out, or else it waits or is written still. -/
theorem perform_flush (haccount : Accounts m file Holds)
    (h : Pending Holds first written (waiting, s)) :
    (∃ after, perform (Buffered.flush file : Buffered m Unit) (waiting, s) =
        (.ok (), (ByteArray.empty, after)) ∧ Holds first after written) ∨
    ∃ cause after, perform (Buffered.flush file : Buffered m Unit) (waiting, s) =
        (.error cause, after) ∧ after.1.size ≠ 0 ∧
        Pending Holds (first.or (some cause)) written after := by
  obtain ⟨held, hheld, rfl⟩ := h
  have hwrites : Writes Holds first held waiting
      (Stateful.run (writeAll .notFlushed file waiting) s) :=
    writes_writeAll haccount (.inl rfl) hheld
  generalize hrun : Stateful.run (writeAll .notFlushed file waiting : m _) s = outcome at hwrites
  cases hwrites with
  | all hall => exact .inl ⟨_, Stateful.run_stateT_iff.mpr hrun, hall⟩
  | @part _ taken left _ hsplit hleft hpart =>
    refine .inr ⟨_, _, Stateful.run_stateT_iff.mpr hrun, hleft, held ++ taken, hpart, ?_⟩
    rw [ByteArray.append_assoc, hsplit]

/-- Where nothing waits, nothing is written. -/
theorem perform_flush_empty (file : handle) (s : σ) :
    perform (Buffered.flush file : Buffered m Unit) (ByteArray.empty, s) =
      (.ok (), (ByteArray.empty, s)) := by
  apply Stateful.run_stateT_iff.mpr
  change Stateful.run (writeAll .notFlushed file ByteArray.empty : m _) s = _
  rw [writeAll, if_pos ByteArray.size_empty, Stateful.run_pure]

private theorem perform_writeThrough (bytes : ByteArray) (haccount : Accounts m file Holds)
    (h : Holds first s held) :
    (∃ after, perform (Buffered.writeThrough file bytes : Buffered m Unit) (waiting, s) =
        (.ok (), (waiting, after)) ∧ Holds first after (held ++ bytes)) ∨
    ∃ cause taken left after, taken ++ left = bytes ∧
      perform (Buffered.writeThrough file bytes : Buffered m Unit) (waiting, s) =
        (.error cause, (waiting, after)) ∧ Holds (first.or (some cause)) after (held ++ taken) := by
  have hwrites : Writes Holds first held bytes (Stateful.run (writeAll .noRoom file bytes) s) :=
    writes_writeAll haccount (.inr rfl) h
  rw [perform, Buffered.writeThrough, ExceptT.run_mk, Stateful.run_bind, Stateful.run_lift]
  generalize Stateful.run (writeAll .noRoom file bytes : m _) s = outcome at hwrites ⊢
  cases hwrites with
  | all hall => exact .inl ⟨_, Stateful.run_pure _ _, hall⟩
  | part hsplit _ hpart => exact .inr ⟨_, _, _, _, hsplit, Stateful.run_pure _ _, hpart⟩

private theorem perform_makeRoom (haccount : Accounts m file Holds) (size : Nat)
    (h : Pending Holds first written (waiting, s)) :
    (∃ after, perform (Buffered.makeRoom file size : Buffered m Unit) (waiting, s) =
        (.ok (), after) ∧ Pending Holds first written after ∧
        (bufferSize ≤ size → after.1 = ByteArray.empty)) ∨
    ∃ cause after, perform (Buffered.makeRoom file size : Buffered m Unit) (waiting, s) =
        (.error cause, after) ∧ bufferSize ≤ written.size + size ∧
        Pending Holds (first.or (some cause)) written after := by
  have hwaiting : waiting.size ≤ written.size := by
    obtain ⟨held, -, rfl⟩ := h
    rw [ByteArray.size_append]
    exact Nat.le_add_left _ _
  rw [Buffered.makeRoom, perform_get_bind]
  split
  · next hfull =>
    rcases perform_flush haccount h with
      ⟨after, hflush, hheld⟩ | ⟨cause, after, hflush, -, hpending⟩
    · exact .inl ⟨_, hflush, ⟨written, hheld, ByteArray.append_empty⟩, fun _ ↦ rfl⟩
    · exact .inr ⟨_, _, hflush, by omega, hpending⟩
  · next hroom =>
    refine .inl ⟨_, Stateful.run_pure _ _, h, ?_⟩
    intro hlarge
    have hsize : waiting.size = 0 := by
      rw [bufferSize] at hlarge hroom
      omega
    exact ByteArray.size_eq_zero_iff.mp hsize

/-- Bytes that are written by way of a buffer are on the file or wait, behind those that were
written before, as far as they were not refused. -/
theorem reaches_write (bytes : ByteArray) (haccount : Accounts m file Holds)
    (h : Pending Holds first written (waiting, s)) :
    Reaches Holds first (written ++ bytes)
      (perform (Buffered.write file bytes : Buffered m Unit) (waiting, s)) := by
  rw [Buffered.write]
  rcases perform_makeRoom haccount bytes.size h with
    ⟨⟨waiting, s⟩, hroom, ⟨held, hheld, rfl⟩, hempty⟩ | ⟨cause, after, hroom, hlate, hpending⟩
  · rw [perform_bind_of_ok hroom]
    split
    · next hlarge =>
      obtain rfl : waiting = ByteArray.empty := hempty hlarge
      rw [ByteArray.append_empty]
      rcases perform_writeThrough bytes haccount hheld with
        ⟨after, hwrite, hall⟩ | ⟨cause, taken, left, after, rfl, hwrite, hpart⟩
      · rw [hwrite]
        exact .all ⟨_, hall, ByteArray.append_empty⟩
      · rw [hwrite]
        refine .part ByteArray.append_assoc ?_ ⟨_, hpart, ByteArray.append_empty⟩
        rw [ByteArray.size_append]
        omega
    · rw [perform_modify]
      exact .all ⟨held, hheld, ByteArray.append_assoc.symm⟩
  · rw [perform_bind_of_error hroom]
    refine .part rfl ?_ hpending
    rwa [ByteArray.size_append]

end Writing

end BootConfig.Files
