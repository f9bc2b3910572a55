import DspFirmware.Reader.Gather

/-!
Properties that all answers of an operation share, wherever it is run.
-/

namespace DspFirmware

namespace Read

/-- Every answer has the property. -/
def Ensures (P : α → Prop) (operation : Read α) : Prop :=
  ∀ ⦃r answer s⦄, operation r = .ok answer s → P answer

variable {P : α → Prop} {Q : β → Prop}

theorem ensures_pure {value : α} (h : P value) : Ensures P (pure value) := by
  intro r answer s success
  exact (pure_eq_ok.mp success).1 ▸ h

theorem ensures_throw (fault : Fault) : Ensures P (throw fault) := by
  intro r answer s success
  cases success

theorem Ensures.bind {operation : Read α} {next : α → Read β} (first : Ensures P operation)
    (second : ∀ value, P value → Ensures Q (next value)) : Ensures Q (operation >>= next) := by
  intro r answer s success
  obtain ⟨value, t, left, right⟩ := bind_eq_ok.mp success
  exact second value (first left) right

theorem ensures_bind {operation : Read α} {next : α → Read β}
    (second : ∀ value, Ensures Q (next value)) : Ensures Q (operation >>= next) :=
  fun _ _ _ success => by
    obtain ⟨value, _, _, right⟩ := bind_eq_ok.mp success
    exact second value right

theorem ensures_map {operation : Read α} {f : α → β} (h : ∀ value, Q (f value)) :
    Ensures Q (f <$> operation) := by
  intro r answer s success
  obtain ⟨value, _, rfl⟩ := map_eq_ok.mp success
  exact h value

/-- What a repeated step delivers has the property of each delivery. -/
theorem Ensures.gather {step : Read (Option α)} {progress : Progress step}
    (h : Ensures (∀ item ∈ ·, P item) step) (r : Reader) :
    ∀ item ∈ (r.gather step progress).items, P item := by
  induction size : r.rest.length using Nat.strongRecOn generalizing r with
  | _ size ih =>
      cases taken : step r with
      | error fault s => simp [Reader.gather_of_error taken]
      | ok delivered s =>
          cases delivered with
          | none => simp [Reader.gather_of_none taken]
          | some first =>
              have shorter := Reader.length_rest_lt (progress taken).1 (progress taken).2
              rw [Reader.gather_of_some taken]
              exact List.forall_mem_append.mpr
                ⟨by simpa using h taken first rfl, ih _ (size ▸ shorter) s rfl⟩

theorem Ensures.list {step : Read (Option α)} {progress : Progress step}
    (h : Ensures (∀ item ∈ ·, P item) step) : Ensures (∀ item ∈ ·, P item) (list step progress) := by
  intro r items s success
  have each : ∀ item ∈ (r.gather step progress).items, P item := h.gather r
  rwa [list_eq_ok.mp success] at each

end Read

end DspFirmware
