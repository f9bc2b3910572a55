import DspFirmware.Proofs.Leb128

/-!
Reading does not depend on what has been passed. On two readers with the same bytes ahead, a local
operation comes to the same answer, or to the same fault up to the places that faults name.
-/

namespace DspFirmware

/-- A fault without the place where it was met. -/
def Fault.unplaced : Fault → Fault
  | .outOfBounds _ count _ => .outOfBounds 0 count 0
  | .unterminatedString _ => .unterminatedString 0
  | .lebOverflow _ => .lebOverflow 0
  | other => other

theorem Fault.eq_none_iff_of_unplaced {first second : Option Fault}
    (same : first.map unplaced = second.map unplaced) : first = none ↔ second = none :=
  Option.map_eq_none_iff.symm.trans ((Eq.congr_left same).trans Option.map_eq_none_iff)

namespace Read

open Reader

/-- Two outcomes that differ in nothing but places. -/
inductive Alike : EStateM.Result Fault Reader α → EStateM.Result Fault Reader α → Prop where
  | ok {answer other : α} {r s : Reader} (equal : answer = other) (same : r.rest = s.rest) :
      Alike (.ok answer r) (.ok other s)
  | error {cause other : Fault} {r s : Reader} (same : cause.unplaced = other.unplaced) :
      Alike (.error cause r) (.error other s)

/-- The outcome follows from what lies ahead. -/
def Local (operation : Read α) : Prop :=
  ∀ ⦃r s⦄, r.rest = s.rest → Alike (operation r) (operation s)

theorem local_pure (value : α) : Local (pure value : Read α) := fun _ _ same => .ok rfl same

theorem local_throw (cause : Fault) : Local (throw cause : Read α) := fun _ _ _ => .error rfl

theorem Local.bind {operation : Read α} {next : α → Read β} (first : Local operation)
    (second : ∀ value, Local (next value)) : Local (operation >>= next) := by
  intro r s same
  have outcome := first same
  change Alike (EStateM.bind operation next r) (EStateM.bind operation next s)
  rw [EStateM.bind, EStateM.bind]
  generalize operation r = left at outcome ⊢
  generalize operation s = right at outcome ⊢
  cases outcome with
  | ok equal behind =>
      cases equal
      exact second _ behind
  | error kind => exact .error kind

theorem Local.map {operation : Read α} {f : α → β} (h : Local operation) :
    Local (f <$> operation) := by
  rw [← bind_pure_comp]
  exact h.bind fun _ => local_pure _

theorem local_bytes (count : Nat) : Local (bytes count) := by
  intro r s same
  rw [bytes, bytes]
  by_cases enough : Bytes.holds count r.rest
  · have other : Bytes.holds count s.rest := same ▸ enough
    rw [dif_pos enough, dif_pos other]
    exact .ok (by rw [same]) (by simp [advance, same])
  · have other : ¬Bytes.holds count s.rest := same ▸ enough
    rw [dif_neg enough, dif_neg other]
    exact .error rfl

theorem local_scanned {scan : Bytes → Leb128.Scan α}
    (within : ∀ bytes, (scan bytes).Within bytes.length) : Local (scanned scan within) := by
  intro r s same
  cases found : scan r.rest with
  | value value length =>
      obtain ⟨_, left⟩ := scanned_of_value found
      obtain ⟨_, right⟩ := scanned_of_value (same ▸ found)
      rw [left, right]
      exact .ok rfl (by simp [advance, same])
  | overflow length =>
      obtain ⟨_, left⟩ := scanned_of_overflow found
      obtain ⟨_, right⟩ := scanned_of_overflow (same ▸ found)
      rw [left, right]
      exact .error rfl
  | truncated =>
      rw [scanned_of_truncated found, scanned_of_truncated (same ▸ found)]
      exact .error rfl

theorem local_uleb128 : Local uleb128 := (local_scanned _).map

theorem local_sleb128 : Local sleb128 := local_scanned _

/-- Looking for the end is local, although the reader is looked at. -/
theorem local_atEnd {atEnd within : Read α} (first : Local atEnd) (second : Local within) :
    Local (do if (← get).atEnd then atEnd else within) := by
  intro r s same
  change Alike ((if r.atEnd then atEnd else within) r) ((if s.atEnd then atEnd else within) s)
  have ends : r.atEnd = s.atEnd := by rw [Reader.atEnd, Reader.atEnd, same]
  rw [ends]
  split
  · exact first same
  · exact second same

/-- A local step delivers the same items, and ends alike. -/
theorem Local.gather {step : Read (Option α)} {progress : Progress step} (h : Local step)
    {r s : Reader} (same : r.rest = s.rest) :
    (r.gather step progress).items = (s.gather step progress).items
      ∧ (r.gather step progress).stop.rest = (s.gather step progress).stop.rest
      ∧ (r.gather step progress).fault.map Fault.unplaced
          = (s.gather step progress).fault.map Fault.unplaced := by
  induction length : r.rest.length using Nat.strongRecOn generalizing r s with
  | _ size ih =>
      have outcome := h same
      generalize left : step r = first at outcome
      generalize right : step s = second at outcome
      cases outcome with
      | error kind =>
          rw [gather_of_error left, gather_of_error right]
          exact ⟨rfl, same, congrArg some kind⟩
      | @ok item other t u equal behind =>
          cases equal
          cases item with
          | none =>
              rw [gather_of_none left, gather_of_none right]
              exact ⟨rfl, behind, rfl⟩
          | some item =>
              have further := progress left
              have shorter := Reader.length_rest_lt further.1 further.2
              obtain ⟨items, stop, fault⟩ := ih _ (length ▸ shorter) behind rfl
              rw [gather_of_some left, gather_of_some right]
              exact ⟨congrArg (item :: ·) items, stop, fault⟩

end Read

end DspFirmware
