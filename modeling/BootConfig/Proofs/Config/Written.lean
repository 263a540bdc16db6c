import BootConfig.Config.File
import BootConfig.Proofs.Config.Playing
import BootConfig.Proofs.Files.Buffer

/-!
# What a script leaves in a file

A file that takes all that is written to it holds in the end what the script writes, and the run
ends as the script does. If the file refuses something, it holds the first part of that. The refusal
is what the run ends with, unless the script fails and nothing was refused until then; so no run
succeeds whose output is not complete.
-/

namespace BootConfig.Config

open BootConfig.Files (Accounts Buffered Pending Reaches Stateful Store bufferSize perform)

variable {handle σ : Type}

section Outcomes

variable (Holds : Option Files.Error → σ → ByteArray → Prop)

/-- How steps end that are played by way of a buffer, if by their end the given bytes are written:
with the given result, or with a write that is refused. -/
inductive Plays (result : Except Error Nat) (written : ByteArray) :
    Except Error Nat × (ByteArray × σ) → Prop where
  | whole {s : ByteArray × σ} (h : Pending Holds none written s) : Plays result written (result, s)
  | refused {cause : Files.Error} {front back : ByteArray} {s : ByteArray × σ}
      (hsplit : front ++ back = written) (hlate : bufferSize ≤ written.size)
      (h : Pending Holds (some cause) front s) : Plays result written (.error (.io cause), s)

/-- How a script ends that is played by way of a buffer: everything is flushed, or it has failed and
some bytes may wait, or a write was refused, at the end or when more was written than the buffer has
room for. -/
inductive PlaysOn (script : Script) : Except Error Nat × (ByteArray × σ) → Prop where
  | flushed {count : Nat} {s : σ} (hresult : script.result = .ok count)
      (h : Holds none s (writtenBy script.steps).toUTF8) :
      PlaysOn script (.ok count, (ByteArray.empty, s))
  | failed {e : Error} {s : ByteArray × σ} (hresult : script.result = .error e)
      (h : Pending Holds none (writtenBy script.steps).toUTF8 s) : PlaysOn script (.error e, s)
  | refused {cause : Files.Error} {front back : ByteArray} {s : ByteArray × σ}
      (hlate : (∃ count, script.result = .ok count) ∨
        bufferSize ≤ (writtenBy script.steps).toUTF8.size)
      (hsplit : front ++ back = (writtenBy script.steps).toUTF8)
      (h : Pending Holds (some cause) front s) : PlaysOn script (.error (.io cause), s)

/-- How a script ends that is played on a file, and what it leaves there. -/
inductive Leaves (script : Script) : Except Error Nat × σ → Prop where
  /-- The file has taken everything. -/
  | whole {s : σ} (h : Holds none s (writtenBy script.steps).toUTF8) :
      Leaves script (script.result, s)
  /-- The file has refused something, but not before the script failed. -/
  | unreported {e : Error} {cause : Files.Error} {front back : ByteArray} {s : σ}
      (hresult : script.result = .error e)
      (hsplit : front ++ back = (writtenBy script.steps).toUTF8) (hback : back.size ≠ 0)
      (h : Holds (some cause) s front) : Leaves script (.error e, s)
  /-- The file has refused something at the end of a script that did not fail, or else before, when
  more was written than the buffer has room for. -/
  | reported {cause : Files.Error} {front back : ByteArray} {s : σ}
      (hlate : (∃ count, script.result = .ok count) ∨
        bufferSize ≤ (writtenBy script.steps).toUTF8.size)
      (hsplit : front ++ back = (writtenBy script.steps).toUTF8)
      (h : Holds (some cause) s front) : Leaves script (.error (.io cause), s)

end Outcomes

variable {m : Type → Type} [Monad m] [Stateful m σ] [Store m handle]
  {file : handle} {Holds : Option Files.Error → σ → ByteArray → Prop} {written waiting : ByteArray}
  {s : σ}

private theorem append_toUTF8_writtenBy_cons (written : ByteArray) (step : Step)
    (rest : List Step) :
    written ++ (writtenBy (step :: rest)).toUTF8 =
      written ++ step.text.toUTF8 ++ (writtenBy rest).toUTF8 := by
  rw [writtenBy_cons, String.toUTF8_eq_toByteArray, String.toByteArray_append,
    ByteArray.append_assoc]
  rfl

private theorem Plays.before {result : Except Error Nat} {front back : ByteArray}
    {cause : Files.Error} {after : ByteArray × σ} (more : ByteArray)
    (hsplit : front ++ back = written) (hlate : bufferSize ≤ written.size)
    (h : Pending Holds (some cause) front after) :
    Plays Holds result (written ++ more) (.error (.io cause), after) := by
  have hmore : front ++ (back ++ more) = written ++ more := by
    rw [← ByteArray.append_assoc, hsplit]
  refine .refused hmore ?_ h
  rw [ByteArray.size_append]
  omega

private theorem run_writeTo {script : Script} {result : Except Error Nat}
    {left : Except Files.Error Unit} {more : ByteArray} {middle after : σ}
    (hplay : perform (script.playOn file : ExceptT Error (StateT ByteArray m) Nat)
      (ByteArray.empty, s) = (result, (waiting, middle)))
    (hflush : perform (Buffered.flush file : Buffered m Unit) (waiting, middle) =
      (left, (more, after))) :
    Stateful.run (script.writeTo file : m (Except Error Nat)) s = (result, after) := by
  have hplay' := Stateful.run_stateT_iff.mp hplay
  have hflush' := Stateful.run_stateT_iff.mp hflush
  rw [Script.writeTo, Stateful.run_bind, hplay', Stateful.run_bind, hflush', Stateful.run_pure]

variable [LawfulMonad m]

/-- An operation on files that is part of a run does what it does on its own. -/
theorem perform_onFiles {α : Type} {operation : ExceptT Files.Error m α}
    {result : Except Files.Error α} {after : σ} (h : perform operation s = (result, after)) :
    perform (onFiles operation) s = (result.mapError .io, after) :=
  Files.perform_adapt _ h

/-- Steps are played to their end, or up to a write that is refused. -/
theorem plays_playSteps (haccount : Accounts m file Holds) (result : Except Error Nat)
    (steps : List Step) (h : Pending Holds none written (waiting, s)) :
    Plays Holds result (written ++ (writtenBy steps).toUTF8)
      (perform (playSteps result file steps : ExceptT Error (StateT ByteArray m) Nat)
        (waiting, s)) := by
  induction steps generalizing written waiting s with
  | nil =>
    rw [playSteps, Files.perform_liftExcept]
    have hnothing : (writtenBy []).toUTF8 = ByteArray.empty := rfl
    rw [hnothing, ByteArray.append_empty]
    exact .whole h
  | cons step rest ih =>
    rw [append_toUTF8_writtenBy_cons]
    cases step with
    | note made =>
      rw [playSteps, Step.text, show "".toUTF8 = ByteArray.empty from rfl, ByteArray.append_empty]
      exact ih h
    | write text =>
      have hreaches := Files.reaches_write text.toUTF8 haccount h
      generalize hwrite : perform (Buffered.write file text.toUTF8 : Buffered m Unit) (waiting, s) =
        outcome at hreaches
      cases hreaches with
      | all hpending =>
        rw [playSteps, Files.perform_bind_of_ok (perform_onFiles hwrite)]
        exact ih hpending
      | part hsplit hlate hpending =>
        rw [playSteps, Files.perform_bind_of_error (perform_onFiles hwrite)]
        exact .before _ hsplit hlate hpending

private theorem playsOn_playOn (haccount : Accounts m file Holds) (script : Script)
    (h : Holds none s ByteArray.empty) :
    PlaysOn Holds script (perform (script.playOn file : ExceptT Error (StateT ByteArray m) Nat)
      (ByteArray.empty, s)) := by
  have hnothing : Pending Holds none ByteArray.empty (ByteArray.empty, s) :=
    ⟨ByteArray.empty, h, ByteArray.append_empty⟩
  have hplays := plays_playSteps haccount script.result script.steps hnothing
  rw [ByteArray.empty_append] at hplays
  rw [Script.playOn]
  generalize hplay : perform (playSteps script.result file script.steps :
    ExceptT Error (StateT ByteArray m) Nat) (ByteArray.empty, s) = outcome at hplays
  cases hplays with
  | @whole after hpending =>
    cases hresult : script.result with
    | error e =>
      rw [hresult] at hplay
      rw [Files.perform_bind_of_error hplay]
      exact .failed hresult hpending
    | ok count =>
      rw [hresult] at hplay
      rw [Files.perform_bind_of_ok hplay]
      rcases Files.perform_flush haccount hpending with
        ⟨left, hflush, hheld⟩ | ⟨cause, left, hflush, -, hleft⟩
      · rw [Files.perform_bind_of_ok (perform_onFiles hflush), Files.perform_pure]
        exact .flushed hresult hheld
      · rw [Files.perform_bind_of_error (perform_onFiles hflush)]
        exact .refused (.inl ⟨count, hresult⟩) ByteArray.append_empty hleft
  | refused hsplit hlate hpending =>
    rw [Files.perform_bind_of_error hplay]
    exact .refused (.inr hlate) hsplit hpending

/-- A script that is played on an empty file ends as it says, unless the file refuses something, and
leaves there what it writes, or the first part of that. -/
theorem leaves_writeTo (haccount : Accounts m file Holds) (script : Script)
    (h : Holds none s ByteArray.empty) :
    Leaves Holds script (Stateful.run (script.writeTo file : m (Except Error Nat)) s) := by
  have hends := playsOn_playOn haccount script h
  generalize hplay : perform (script.playOn file : ExceptT Error (StateT ByteArray m) Nat)
    (ByteArray.empty, s) = outcome at hends
  cases hends with
  | @flushed _ after hresult hheld =>
    rw [run_writeTo hplay (Files.perform_flush_empty file after), ← hresult]
    exact .whole hheld
  | @failed _ after hresult hpending =>
    obtain ⟨waiting, after⟩ := after
    rcases Files.perform_flush haccount hpending with
      ⟨left, hflush, hheld⟩ | ⟨cause, ⟨more, left⟩, hflush, hmore, held, hheld, hsplit⟩
    · rw [run_writeTo hplay hflush, ← hresult]
      exact .whole hheld
    · rw [run_writeTo hplay hflush]
      exact .unreported hresult hsplit hmore hheld
  | @refused _ _ _ after hlate hsplit hpending =>
    obtain ⟨waiting, after⟩ := after
    rcases Files.perform_flush haccount hpending with
      ⟨left, hflush, hheld⟩ | ⟨other, ⟨more, left⟩, hflush, -, held, hheld, rfl⟩
    · rw [run_writeTo hplay hflush]
      exact .reported hlate hsplit hheld
    · rw [run_writeTo hplay hflush]
      rw [ByteArray.append_assoc] at hsplit
      exact .reported hlate hsplit hheld

end BootConfig.Config
