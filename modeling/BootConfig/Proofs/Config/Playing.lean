import BootConfig.Config.Sink

/-!
# Playing a script

A sink without limit takes every text of a script. A sink with room for some bytes takes the first
ones of the same texts, and the result is that of the script exactly if all of them fit.
-/

namespace BootConfig.Config

/-- The text that a step writes. -/
def Step.text : Step → String
  | .note _ => ""
  | .write text => text

/-- The note that a step makes, if it makes one. -/
def Step.note? : Step → Option Note
  | .note made => some made
  | .write _ => none

/-- Everything that steps write, if all of it is taken. -/
def writtenBy (steps : List Step) : String :=
  String.join (steps.map Step.text)

/-- What steps write starts with what the first one writes. -/
theorem writtenBy_cons (step : Step) (rest : List Step) :
    writtenBy (step :: rest) = step.text ++ writtenBy rest := by
  rw [writtenBy, List.map_cons, String.join_cons, writtenBy]

/-- What steps write continues with what the steps behind them write. -/
theorem writtenBy_append (steps more : List Step) :
    writtenBy (steps ++ more) = writtenBy steps ++ writtenBy more := by
  rw [writtenBy, List.map_append, String.join_append, writtenBy, writtenBy]

/-- Pieces that are written one after the other make up their text. -/
theorem writtenBy_map_write (pieces : List String) :
    writtenBy (pieces.map .write) = String.join pieces := by
  rw [writtenBy, List.map_map]
  exact congrArg String.join (List.map_id pieces)

private theorem toList_toUTF8_append (text more : String) :
    Bytes.toList (text ++ more).toUTF8 =
      Bytes.toList text.toUTF8 ++ Bytes.toList more.toUTF8 := by
  simp [Bytes.toList]

private theorem length_toList_toUTF8 (text : String) :
    (Bytes.toList text.toUTF8).length = text.utf8ByteSize :=
  (Bytes.length_toList _).trans String.size_toByteArray

namespace Sink

variable (result : Except Error Nat)

private theorem play_note (sink : Sink) (made : Note) (rest : List Step) :
    play result sink (.note made :: rest) = (play result sink rest).noted made :=
  rfl

private theorem play_write (sink : Sink) (text : String) (rest : List Step) :
    play result sink (.write text :: rest) =
      if sink.fits text.utf8ByteSize then play result (sink.write text.toUTF8) rest
      else ⟨(sink.write text.toUTF8).taken, [], .error (.io .noRoom)⟩ :=
  rfl

/-- On a sink without limit, steps are played to their end. -/
theorem play_unlimited (taken : ByteArray) (steps : List Step) :
    play result ⟨taken, none⟩ steps =
      ⟨taken ++ (writtenBy steps).toUTF8, steps.filterMap Step.note?, result⟩ := by
  induction steps generalizing taken with
  | nil => simp [play, writtenBy]
  | cons step rest ih =>
    cases step with
    | note made =>
      rw [play_note, ih, writtenBy_cons, Step.text, String.empty_append]
      rfl
    | write text =>
      rw [play_write, fits, if_pos rfl, write, ih, writtenBy_cons, Step.text]
      simp only [String.toUTF8_eq_toByteArray, String.toByteArray_append, ByteArray.append_assoc]
      rfl

/-- On a sink with room for some bytes, the first ones of what steps write are taken, and the result
is kept exactly if they are all. -/
theorem play_room (taken : ByteArray) (room : Nat) (steps : List Step) :
    Bytes.toList (play result ⟨taken, some room⟩ steps).output =
        Bytes.toList taken ++ (Bytes.toList (writtenBy steps).toUTF8).take room ∧
      (play result ⟨taken, some room⟩ steps).result =
        if (writtenBy steps).utf8ByteSize ≤ room then result else .error (.io .noRoom) := by
  -- A text that fits leaves less room for those behind it; the first that does not fit fills it.
  induction steps generalizing taken room with
  | nil => simp [play, writtenBy, Bytes.toList]
  | cons step rest ih =>
    cases step with
    | note made =>
      rw [writtenBy_cons, Step.text, String.empty_append]
      exact ih taken room
    | write text =>
      have htaken := toList_taken_write ⟨taken, some room⟩ text.toUTF8
      rw [play_write, writtenBy_cons, Step.text, toList_toUTF8_append, String.utf8ByteSize_append,
        List.take_append, length_toList_toUTF8, ← List.append_assoc, ← htaken]
      by_cases hfits : text.utf8ByteSize ≤ room
      · rw [if_pos (by simpa [fits] using hfits)]
        obtain ⟨houtput, hresult⟩ :=
          ih ((Sink.mk taken (some room)).write text.toUTF8).taken (room - text.utf8ByteSize)
        have hrest : (writtenBy rest).utf8ByteSize ≤ room - text.utf8ByteSize ↔
            text.utf8ByteSize + (writtenBy rest).utf8ByteSize ≤ room := by omega
        simp only [hrest] at hresult
        exact ⟨houtput, hresult⟩
      · rw [if_neg (by simpa [fits] using hfits), Nat.sub_eq_zero_of_le (by omega), List.take_zero,
          List.append_nil, if_neg (by omega)]
        exact ⟨rfl, rfl⟩

end Sink

end BootConfig.Config
