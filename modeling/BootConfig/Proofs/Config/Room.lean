import BootConfig.Proofs.Bytes.Window
import BootConfig.Proofs.Config.Generate

/-!
# Runs on a sink that runs full

A run on a sink with limited room is the run without limit, cut off where the room ends. Its result
is the same if nothing is cut off, and else that there is no room, whatever the run would have met
behind the cut.
-/

namespace BootConfig.Config

/-- A script that is run in limited room leaves the first bytes of what it writes without limit, and
ends as it does there exactly if these are all. -/
theorem Script.run_room (script : Script) (room : Nat) :
    Bytes.toList (script.run (some room)).output =
        (Bytes.toList (script.run none).output).take room ∧
      (script.run (some room)).result =
        if (script.run none).output.size ≤ room then (script.run none).result
        else .error (.io .noRoom) := by
  obtain ⟨houtput, hresult⟩ := Sink.play_room script.result ByteArray.empty room script.steps
  rw [run_unlimited]
  exact ⟨houtput, hresult⟩

/-- The same holds of a run on any input, be it a text or not. -/
theorem generate_some (format : Format) (input : ByteArray) (room : Nat) :
    Bytes.toList (generate format input (some room)).output =
        (Bytes.toList (generate format input none).output).take room ∧
      (generate format input (some room)).result =
        if (generate format input none).output.size ≤ room then
          (generate format input none).result
        else .error (.io .noRoom) :=
  (scriptFor format input).run_room room

/-- In limited room, a run leaves exactly the first bytes of what it writes without limit. Its
result is the same if they are all, and else that there is no room. So a malformed line is reported
exactly if all that is written before it fits, and a run that succeeds has written everything. -/
theorem generate_in_room (format : Format) (input : ByteArray) (room : Nat) :
    Bytes.toList (generate format input (some room)).output =
        (Bytes.toList (generate format input none).output).take room ∧
      (generate format input (some room)).output.size =
        min room (generate format input none).output.size ∧
      (generate format input (some room)).result =
        (if (generate format input none).output.size ≤ room then
          (generate format input none).result
        else .error (.io .noRoom)) ∧
      (∀ number fault, (generate format input (some room)).result = .error (.line number fault) ↔
        (generate format input none).result = .error (.line number fault) ∧
          (generate format input none).output.size ≤ room) ∧
      ∀ count, (generate format input (some room)).result = .ok count →
        (generate format input (some room)).output = (generate format input none).output := by
  obtain ⟨houtput, hresult⟩ := generate_some format input room
  refine ⟨houtput, ?_, hresult, ?_, ?_⟩
  · rw [← Bytes.length_toList, houtput, List.length_take, Bytes.length_toList]
  · intro number fault
    rw [hresult]
    split
    · next hfits => exact ⟨fun h ↦ ⟨h, hfits⟩, fun h ↦ h.1⟩
    · next hfull =>
      constructor
      · intro h
        cases h
      · exact fun h ↦ (hfull h.2).elim
  · intro count hok
    rw [hresult] at hok
    split at hok
    · next hfits =>
      rw [← Bytes.length_toList] at hfits
      rw [List.take_of_length_le hfits] at houtput
      exact Bytes.toList_inj houtput
    · cases hok

/-- In room for 13 bytes, a header is cut off inside its first line and a malformed first line
behind that is not reported; in room for 21 it is. -/
theorem generate_in_room_sample :
    Bytes.toList (generate (.header "G") "A=1=2".toUTF8 (some 13)).output =
        Bytes.toList "#ifndef G\n#de".toUTF8 ∧
      (generate (.header "G") "A=1=2".toUTF8 (some 13)).result = .error (.io .noRoom) ∧
      (generate (.header "G") "A=1=2".toUTF8 (some 21)).result =
        .error (.line 1 .multipleSeparators) ∧
      (generate (.header "G") "A=".toUTF8 (some 60)).result = .ok 1 ∧
      (generate (.header "G") "A=".toUTF8 (some 60)).output =
        (generate (.header "G") "A=".toUTF8 none).output := by
  have hfirst : (Text.lines "A=1=2")[0]? = some "A=1=2" := by decide +kernel
  obtain ⟨hwritten, hline⟩ :=
    generate_of_malformed (.header "G") hfirst (by decide +kernel) (by decide +kernel)
  obtain ⟨hall, hcount⟩ := generate_of_not_malformed (.header "G") "A=" (by decide +kernel)
  obtain ⟨hcut, -, hfull, -, -⟩ := generate_in_room (.header "G") "A=1=2".toUTF8 13
  obtain ⟨-, -, -, hreported, -⟩ := generate_in_room (.header "G") "A=1=2".toUTF8 21
  obtain ⟨-, -, hfits, -, hsame⟩ := generate_in_room (.header "G") "A=".toUTF8 60
  rw [hwritten] at hcut hfull
  rw [hall, hcount] at hfits
  have hok := hfits.trans (if_pos (by decide +kernel))
  refine ⟨?_, ?_, ?_, ?_, hsame 1 ?_⟩
  · rw [hcut]
    decide +kernel
  · rw [hfull, if_neg (by decide +kernel)]
  · rw [hreported, hwritten]
    exact ⟨hline, by decide +kernel⟩
  · exact hok
  · exact hok

end BootConfig.Config
