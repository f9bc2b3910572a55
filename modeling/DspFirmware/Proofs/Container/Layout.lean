import DspFirmware.Container.Layout
import Mathlib.Algebra.BigOperators.Group.List.Basic
import Mathlib.Algebra.Ring.Nat

/-!
When payloads can be placed, and where they are put. Nothing but their total size decides the first
question, and the second has one answer: each payload begins where the one before it ends.
-/

namespace DspFirmware.Container

/-- Payloads of the given sizes from an offset on, without gaps. -/
def contiguous : (offset : Nat) → (sizes : List Nat) → List Placement
  | _, [] => []
  | offset, size :: rest => ⟨offset, size⟩ :: contiguous (offset + size) rest

theorem length_contiguous (offset : Nat) (sizes : List Nat) :
    (contiguous offset sizes).length = sizes.length := by
  induction sizes generalizing offset with
  | nil => rfl
  | cons size rest ih => simp [contiguous, ih]

/-- A payload begins behind all those before it. -/
theorem getElem_contiguous (offset : Nat) (sizes : List Nat) (i : Nat) (h : i < sizes.length)
    (h' : i < (contiguous offset sizes).length) :
    (contiguous offset sizes)[i] = ⟨offset + (sizes.take i).sum, sizes[i]⟩ := by
  induction sizes generalizing offset i with
  | nil => cases h
  | cons size rest ih =>
      cases i with
      | zero => simp [contiguous]
      | succ i =>
          simp only [contiguous, List.getElem_cons_succ, List.take_succ_cons, List.sum_cons]
          rw [ih (offset + size) i (Nat.lt_of_succ_lt_succ h), Nat.add_assoc]

/-- Payloads are placed when the last one ends within 32 bits. Then the earlier ones do too. -/
theorem placeFrom_eq_ok_iff {offset : Nat} {sizes : List Nat} {places : List Placement} :
    placeFrom offset sizes = .ok places ↔
      (sizes = [] ∨ offset + sizes.sum < UInt32.size) ∧ places = contiguous offset sizes := by
  induction sizes generalizing offset places with
  | nil => simp [placeFrom, contiguous, eq_comm]
  | cons size rest ih =>
      rw [placeFrom]
      by_cases h : offset + size < UInt32.size
      · have later : (rest = [] ∨ offset + size + rest.sum < UInt32.size) ↔
            offset + (size + rest.sum) < UInt32.size := by
          rw [Nat.add_assoc]
          refine or_iff_right_of_imp fun empty => ?_
          simpa [empty] using h
        rw [if_pos h]
        cases hRest : placeFrom (offset + size) rest with
        | error fault =>
            have unplaced : ¬ offset + (size + rest.sum) < UInt32.size := fun fits => by
              have placed := ih.mpr ⟨later.mpr fits, rfl⟩
              rw [hRest] at placed
              cases placed
            simp [Functor.map, Except.map, unplaced]
        | ok others =>
            obtain ⟨fits, rfl⟩ := ih.mp hRest
            simp [Functor.map, Except.map, contiguous, later.mp fits, eq_comm]
      · have far : ¬ offset + (size + rest.sum) < UInt32.size := by omega
        simp [h, far]

/-- The first payload that ends beyond 32 bits is the one that is reported. -/
theorem placeFrom_eq_error {offset size : Nat} {before after : List Nat}
    (fits : before = [] ∨ offset + before.sum < UInt32.size)
    (far : UInt32.size ≤ offset + before.sum + size) :
    placeFrom offset (before ++ size :: after) = .error (.segmentTooLarge size) := by
  induction before generalizing offset with
  | nil =>
      rw [List.sum_nil, Nat.add_zero] at far
      rw [List.nil_append, placeFrom, if_neg (Nat.not_lt.mpr far)]
  | cons first before ih =>
      have fits := fits.resolve_left (by simp)
      rw [List.sum_cons] at fits far
      have further := @ih (offset + first) (Or.inr (by omega)) (by omega)
      rw [List.cons_append, placeFrom, if_pos (by omega), further]
      rfl

/-- Nothing else is a reason not to place payloads. -/
theorem placeFrom_eq_error_iff {offset : Nat} {sizes : List Nat} {fault : Fault} :
    placeFrom offset sizes = .error fault ↔ ∃ before size after, sizes = before ++ size :: after
      ∧ (before = [] ∨ offset + before.sum < UInt32.size) ∧ UInt32.size ≤ offset + before.sum + size
      ∧ fault = .segmentTooLarge size := by
  constructor
  · intro refused
    induction sizes generalizing offset with
    | nil => cases refused
    | cons size rest ih =>
        rw [placeFrom] at refused
        by_cases fits : offset + size < UInt32.size
        · rw [if_pos fits] at refused
          cases further : placeFrom (offset + size) rest with
          | ok places =>
              rw [further] at refused
              cases refused
          | error other =>
              rw [further] at refused
              cases refused
              obtain ⟨before, far, after, rfl, near, beyond, rfl⟩ := ih further
              refine ⟨size :: before, far, after, rfl, .inr ?_, ?_, rfl⟩
              · rw [List.sum_cons, ← Nat.add_assoc]
                rcases near with rfl | near
                · exact fits
                · exact near
              · rwa [List.sum_cons, ← Nat.add_assoc]
        · rw [if_neg fits] at refused
          cases refused
          exact ⟨[], size, rest, rfl, .inl rfl, Nat.le_of_not_lt fits, rfl⟩
  · rintro ⟨before, size, after, rfl, near, beyond, rfl⟩
    exact placeFrom_eq_error near beyond

end DspFirmware.Container
