import DspFirmware.Proofs.Streaming

/-!
Reading a run and nothing else. An exact operation that succeeds has found a run of bytes in front of it
from which it reads its answer wherever that run stands, and is behind the run then. What is put together
from bytes and numbers is exact, and a repeated exact step has found a form of every item.
-/

namespace DspFirmware

namespace Leb128

/-- A scan that finds a number finds it in front of other bytes, too. -/
theorem unsigned_split {value length : Nat} {bytes : Bytes} {number total : Nat}
    (found : unsigned value length bytes = .value number total) :
    ∃ run rest, bytes = run ++ rest ∧
      ∀ more, unsigned value length (run ++ more) = .value number (length + run.length) := by
  induction bytes generalizing value length with
  | nil => cases found
  | cons byte rest ih =>
      rw [unsigned_cons] at found
      split at found
      · cases found
      · rename_i fits
        split at found
        · rename_i final
          cases found
          refine ⟨[byte], rest, rfl, fun more => ?_⟩
          rw [List.singleton_append, unsigned_cons, if_neg fits, if_pos final]
          rfl
        · rename_i continued
          obtain ⟨run, behind, rfl, later⟩ := ih found
          refine ⟨byte :: run, behind, rfl, fun more => ?_⟩
          rw [List.cons_append, unsigned_cons, if_neg fits, if_neg continued, later,
            List.length_cons, Nat.add_assoc, Nat.add_comm 1]

theorem signed_split {sum length : Nat} {bytes : Bytes} {number : Int64} {total : Nat}
    (found : signed sum length bytes = .value number total) :
    ∃ run rest, bytes = run ++ rest ∧
      ∀ more, signed sum length (run ++ more) = .value number (length + run.length) := by
  induction bytes generalizing sum length with
  | nil => cases found
  | cons byte rest ih =>
      rw [signed_cons] at found
      split at found
      · cases found
      · rename_i fits
        split at found
        · rename_i final
          cases found
          refine ⟨[byte], rest, rfl, fun more => ?_⟩
          rw [List.singleton_append, signed_cons, if_neg fits, if_pos final]
          rfl
        · rename_i continued
          obtain ⟨run, behind, rfl, later⟩ := ih found
          refine ⟨byte :: run, behind, rfl, fun more => ?_⟩
          rw [List.cons_append, signed_cons, if_neg fits, if_neg continued, later,
            List.length_cons, Nat.add_assoc, Nat.add_comm 1]

end Leb128

namespace Read

open Reader

/-- Success means that a run of bytes was read and nothing else, and the run has a least length. -/
def Exact (least : Nat) (operation : Read α) : Prop :=
  ∀ ⦃passed ahead answer s⦄, operation (between passed ahead) = .ok answer s →
    ∃ run rest, ahead = run ++ rest ∧ least ≤ run.length ∧ s = between (passed ++ run) rest
      ∧ Yields operation run answer

/-- A run at the beginning of what lies ahead is the run that was read. -/
theorem exact_of_yields {least : Nat} {operation : Read α}
    (h : ∀ ⦃passed ahead answer s⦄, operation (between passed ahead) = .ok answer s →
      ∃ run rest value, ahead = run ++ rest ∧ least ≤ run.length ∧ Yields operation run value) :
    Exact least operation := by
  intro passed ahead answer s success
  obtain ⟨run, rest, value, rfl, enough, read⟩ := h success
  have here := read passed rest
  rw [success] at here
  cases here
  exact ⟨run, rest, rfl, enough, rfl, read⟩

theorem Exact.mono {least other : Nat} {operation : Read α} (h : Exact least operation)
    (fewer : other ≤ least) : Exact other operation := by
  intro passed ahead answer s success
  obtain ⟨run, rest, split, enough, behind, read⟩ := h success
  exact ⟨run, rest, split, fewer.trans enough, behind, read⟩

theorem exact_pure (value : α) : Exact 0 (pure value : Read α) :=
  exact_of_yields fun _ ahead _ _ _ => ⟨[], ahead, value, rfl, Nat.le_refl 0, yields_pure value⟩

theorem exact_throw (least : Nat) (cause : Fault) : Exact least (throw cause : Read α) := by
  intro passed ahead answer s success
  cases success

theorem Exact.bind {first second : Nat} {operation : Read α} {next : α → Read β}
    (left : Exact first operation) (right : ∀ value, Exact second (next value)) :
    Exact (first + second) (operation >>= next) := by
  intro passed ahead answer s success
  obtain ⟨middle, t, before, after⟩ := bind_eq_ok.mp success
  obtain ⟨run, behind, rfl, here, rfl, readFirst⟩ := left before
  obtain ⟨other, rest, rfl, there, rfl, readSecond⟩ := right middle after
  refine ⟨run ++ other, rest, (List.append_assoc _ _ _).symm, ?_, by rw [List.append_assoc],
    readFirst.bind readSecond⟩
  rw [List.length_append]
  exact Nat.add_le_add here there

/-- A choice in front of a sequence, as the sequence has it behind either branch. -/
theorem Exact.ite_bind {first second : Nat} {c : Prop} [Decidable c] {operation other : Read α}
    {next : α → Read β} (left : Exact first operation) (right : Exact first other)
    (behind : ∀ value, Exact second (next value)) :
    Exact (first + second) (if c then operation >>= next else other >>= next) := by
  split
  · exact left.bind behind
  · exact right.bind behind

/-- A refusal in front of a sequence that goes on otherwise. -/
theorem Exact.refuse {least : Nat} {c : Prop} [Decidable c] {cause : Fault} {next : α → Read β}
    {operation : Read β} (h : Exact least operation) :
    Exact least (if c then (throw cause : Read α) >>= next else operation) := by
  split
  · intro passed ahead answer s success
    cases success
  · exact h

theorem Exact.map {least : Nat} {operation : Read α} {f : α → β} (h : Exact least operation) :
    Exact least (f <$> operation) := by
  rw [← bind_pure_comp]
  exact h.bind fun _ => exact_pure _

theorem exact_bytes (count : Nat) : Exact count (bytes count) := by
  apply exact_of_yields
  intro passed ahead answer s success
  rw [bytes] at success
  split at success
  · rename_i enough
    have length : (ahead.take count).length = count :=
      List.length_take_of_le (Bytes.holds_iff.mp enough)
    exact ⟨ahead.take count, ahead.drop count, _, (List.take_append_drop _ _).symm, length.ge,
      yields_bytes length⟩
  · cases success

theorem exact_word (width : Nat) : Exact width (word width) :=
  (exact_bytes width).bind fun _ => exact_pure _

theorem exact_uint8 : Exact 1 uint8 := (exact_word 1).bind fun _ => exact_pure _

theorem exact_uint16 : Exact 2 uint16 := (exact_word 2).bind fun _ => exact_pure _

theorem exact_uint32 : Exact 4 uint32 := (exact_word 4).bind fun _ => exact_pure _

theorem exact_int8 : Exact 1 int8 := exact_uint8.bind fun _ => exact_pure _

/-- A text is read with the zero byte behind it. -/
theorem exact_text : Exact 1 text := by
  apply exact_of_yields
  intro passed ahead answer s success
  rw [text] at success
  split at success
  · rename_i found
    obtain ⟨name, rest, whole, nonzero⟩ := List.eq_append_cons_of_mem found
    rw [rest_between] at whole
    refine ⟨name ++ [0], rest, _, ?_, by simp, yields_text nonzero⟩
    rw [whole, List.append_assoc, List.singleton_append]
  · cases success

theorem exact_scanned {scan : Bytes → Leb128.Scan α}
    {within : ∀ bytes, (scan bytes).Within bytes.length}
    (splits : ∀ ⦃bytes number total⦄, scan bytes = .value number total →
      ∃ run rest, bytes = run ++ rest ∧ ∀ more, scan (run ++ more) = .value number run.length) :
    Exact 0 (scanned scan within) := by
  apply exact_of_yields
  intro passed ahead answer s success
  cases found : scan (between passed ahead).rest with
  | value number total =>
      obtain ⟨run, rest, whole, later⟩ := splits found
      exact ⟨run, rest, number, whole, Nat.zero_le _, yields_scanned later⟩
  | overflow length =>
      obtain ⟨_, failed⟩ : ∃ _, scanned scan within (between passed ahead) = _ :=
        scanned_of_overflow found
      cases failed.symm.trans success
  | truncated =>
      have failed : scanned scan within (between passed ahead) = _ := scanned_of_truncated found
      cases failed.symm.trans success

theorem exact_uleb128 : Exact 0 uleb128 := by
  apply Exact.map
  apply exact_scanned
  intro bytes number total found
  simpa using Leb128.unsigned_split found

theorem exact_sleb128 : Exact 0 sleb128 := by
  apply exact_scanned
  intro bytes number total found
  simpa using Leb128.signed_split found

theorem Straight.isExact {α : Type} {operation : Read α} (h : Straight operation) :
    Exact 0 operation := by
  induction h with
  | pure value => exact exact_pure value
  | throw cause => exact exact_throw 0 cause
  | bytes count => exact (exact_bytes count).mono (Nat.zero_le count)
  | uleb128 => exact exact_uleb128
  | sleb128 => exact exact_sleb128
  | bind first second left right => exact left.bind right

/-- The items of a repeated step stand in front of it, each in a form of its own. Behind them the step
finds no more of them. -/
theorem gather_splits {step : Read (Option α)} {progress : Progress step} {form : α → Bytes → Prop}
    {least : Nat}
    (h : ∀ ⦃passed ahead item s⦄, step (between passed ahead) = .ok (some item) s →
      ∃ run rest, ahead = run ++ rest ∧ least ≤ run.length ∧ s = between (passed ++ run) rest
        ∧ form item run)
    {passed ahead : Bytes} {gathered : Gathered α}
    (walked : (between passed ahead).gather step progress = gathered)
    (clean : gathered.fault = none) :
    ∃ bytes rest, ahead = bytes ++ rest ∧ Forms form gathered.items bytes
      ∧ step (between (passed ++ bytes) rest) = .ok none gathered.stop := by
  -- What lies ahead gets shorter with every item.
  induction length : ahead.length using Nat.strongRecOn generalizing passed ahead gathered with
  | _ size ih =>
      cases taken : step (between passed ahead) with
      | error cause s =>
          rw [gather_of_error taken] at walked
          cases walked
          cases clean
      | ok delivered s =>
          cases delivered with
          | none =>
              rw [gather_of_none taken] at walked
              cases walked
              exact ⟨[], ahead, rfl, .nil, by rwa [List.append_nil]⟩
          | some item =>
              have further := (progress taken).2
              obtain ⟨run, behind, rfl, _, rfl, first⟩ := h taken
              rw [gather_of_some taken] at walked
              cases walked
              have shorter : behind.length < size := by
                simp only [pos_between, List.length_append] at further length
                omega
              obtain ⟨bytes, rest, rfl, others, stopped⟩ := ih _ shorter rfl clean rfl
              refine ⟨run ++ bytes, rest, (List.append_assoc _ _ _).symm, .cons first others, ?_⟩
              rw [← List.append_assoc]
              exact stopped

/-- A list of exact steps is exact: its items, and what ends it, have been read and nothing else. -/
theorem Exact.list {least : Nat} {step : Read (Option α)} {progress : Progress step}
    (h : Exact least step) : Exact least (list step progress) := by
  intro passed ahead items s success
  obtain ⟨bytes, behind, rfl, forms, stopped⟩ :=
    gather_splits (fun _ _ _ _ taken => h taken) (list_eq_ok.mp success) rfl
  obtain ⟨last, rest, rfl, enough, rfl, ended⟩ := h stopped
  refine ⟨bytes ++ last, rest, (List.append_assoc _ _ _).symm, ?_, by rw [List.append_assoc],
    yields_list forms ended⟩
  rw [List.length_append]
  exact Nat.le_add_left_of_le enough

theorem untilEnd_eq_some {operation : Read α} {r s : Reader} {item : α}
    (taken : untilEnd operation r = .ok (some item) s) : operation r = .ok item s := by
  by_cases finished : r.atEnd = true
  · rw [untilEnd_of_atEnd operation finished] at taken
    cases taken
  · rw [untilEnd_of_ahead operation finished] at taken
    obtain ⟨other, read, same⟩ := map_eq_ok.mp taken
    cases same
    exact read

theorem untilEnd_eq_none {operation : Read α} {r s : Reader}
    (taken : untilEnd operation r = .ok none s) : r.rest = [] := by
  by_cases finished : r.atEnd = true
  · exact List.isEmpty_iff.mp finished
  · rw [untilEnd_of_ahead operation finished] at taken
    obtain ⟨other, _, impossible⟩ := map_eq_ok.mp taken
    cases impossible

/-- Repeated up to the end without a fault, an exact operation has found a run for each of its items, and
nothing between them. -/
theorem Exact.gather {least : Nat} {operation : Read α} (h : Exact least operation)
    {progress : Progress (untilEnd operation)} {passed ahead : Bytes}
    (clean : ((between passed ahead).gather (untilEnd operation) progress).fault = none) :
    Forms (fun item run => Yields operation run item)
      ((between passed ahead).gather (untilEnd operation) progress).items ahead := by
  obtain ⟨bytes, rest, whole, forms, stopped⟩ :=
    gather_splits (fun _ _ _ _ taken => h (untilEnd_eq_some taken)) rfl clean
  have ended : rest = [] := untilEnd_eq_none stopped
  have all : bytes = ahead := by rw [whole, ended, List.append_nil]
  rwa [all] at forms

end Read

end DspFirmware
