import DspFirmware.Proofs.Container.Layout
import Mathlib.Order.Monotone.Basic

/-!
Placing payloads in machine words. A size has to become a word of 32 bits, and so has the sum of a size and
an offset; together the two checks come to one bound on the sum of all sizes. Then the ends of the payloads
are words too, and no byte of the file belongs to two payloads.
-/

namespace DspFirmware.Container

/-- A size as a word of 32 bits, if it is one. -/
def narrow? (size : UInt64) : Option UInt32 :=
  if size.toNat < UInt32.size then some size.toUInt32 else none

/-- The sum of two words, if it is a word. -/
def add? (first second : UInt32) : Option UInt32 :=
  if first.toNat + second.toNat < UInt32.size then some (first + second) else none

/-- Where a payload lies, in words. -/
structure WordPlacement where
  offset : UInt32
  size : UInt32
  deriving DecidableEq, Repr

namespace WordPlacement

/-- The offset behind the last byte, if it is a word. -/
def finish? (placement : WordPlacement) : Option UInt32 := add? placement.offset placement.size

def toPlacement (placement : WordPlacement) : Placement :=
  ⟨placement.offset.toNat, placement.size.toNat⟩

/-- The offsets of the bytes of a payload. -/
def Covers (placement : WordPlacement) (pos : Nat) : Prop :=
  placement.offset.toNat ≤ pos ∧ pos < placement.offset.toNat + placement.size.toNat

end WordPlacement

/-- The payloads that have been placed, and the offset of the next one. -/
structure Placed where
  placements : List WordPlacement
  next : UInt32

namespace Placed

def start : Placed := ⟨[], 0x300⟩

/-- Places one more payload. -/
def push (placed : Placed) (size : UInt64) : Except Fault Placed :=
  match narrow? size with
  | none => .error (.segmentTooLarge size.toNat)
  | some short =>
      match add? placed.next short with
      | none => .error (.segmentTooLarge size.toNat)
      | some next => .ok ⟨placed.placements ++ [⟨placed.next, short⟩], next⟩

end Placed

def placeWords (sizes : List UInt64) : Except Fault (List WordPlacement) :=
  Placed.placements <$> sizes.foldlM Placed.push Placed.start

section Words

variable {size : UInt64} {first second sum : UInt32}

theorem narrow?_of_lt (small : size.toNat < UInt32.size) :
    ∃ short, narrow? size = some short ∧ short.toNat = size.toNat := by
  refine ⟨_, if_pos small, ?_⟩
  rw [UInt64.toNat_toUInt32]
  exact Nat.mod_eq_of_lt small

theorem add?_of_lt (fits : first.toNat + second.toNat < UInt32.size) :
    ∃ sum, add? first second = some sum ∧ sum.toNat = first.toNat + second.toNat := by
  refine ⟨_, if_pos fits, ?_⟩
  rw [UInt32.toNat_add]
  exact Nat.mod_eq_of_lt fits

end Words

namespace Placed

variable {placed : Placed} {size : UInt64}

/-- A payload that ends within 32 bits passes both checks, and the next one begins behind it. -/
theorem push_of_lt (fits : placed.next.toNat + size.toNat < UInt32.size) :
    ∃ further : Placed, placed.push size = .ok further
      ∧ further.placements.map WordPlacement.toPlacement
        = placed.placements.map WordPlacement.toPlacement ++ [⟨placed.next.toNat, size.toNat⟩]
      ∧ further.next.toNat = placed.next.toNat + size.toNat := by
  obtain ⟨short, narrowed, same⟩ := narrow?_of_lt (Nat.lt_of_le_of_lt (Nat.le_add_left _ _) fits)
  obtain ⟨next, added, total⟩ := add?_of_lt (same ▸ fits)
  refine ⟨⟨placed.placements ++ [⟨placed.next, short⟩], next⟩, ?_, ?_, same ▸ total⟩
  · rw [push, narrowed]
    dsimp only
    rw [added]
  · rw [List.map_append, ← same]
    rfl

/-- One that ends beyond is refused by the first check or by the second one. -/
theorem push_of_le (far : UInt32.size ≤ placed.next.toNat + size.toNat) :
    placed.push size = .error (.segmentTooLarge size.toNat) := by
  rw [push]
  by_cases small : size.toNat < UInt32.size
  · obtain ⟨short, narrowed, same⟩ := narrow?_of_lt small
    have beyond : add? placed.next short = none := if_neg (same ▸ Nat.not_lt.mpr far)
    rw [narrowed]
    dsimp only
    rw [beyond]
  · have wide : narrow? size = none := if_neg small
    rw [wide]

/-- Payloads are pushed where numbers without bounds place them. -/
theorem foldlM_push (sizes : List UInt64) (placed : Placed) :
    (fun last => last.placements.map WordPlacement.toPlacement) <$> sizes.foldlM push placed
      = (placed.placements.map WordPlacement.toPlacement ++ ·)
          <$> placeFrom placed.next.toNat (sizes.map (·.toNat)) := by
  induction sizes generalizing placed with
  | nil => exact congrArg Except.ok (List.append_nil _).symm
  | cons size rest ih =>
      rw [List.foldlM_cons, List.map_cons, placeFrom]
      by_cases fits : placed.next.toNat + size.toNat < UInt32.size
      · obtain ⟨further, pushed, placements, next⟩ := push_of_lt fits
        rw [pushed, if_pos fits]
        change _ <$> rest.foldlM push further = _
        rw [ih, placements, next]
        cases placeFrom (placed.next.toNat + size.toNat) (rest.map (·.toNat)) with
        | error fault => rfl
        | ok others => exact congrArg Except.ok (List.append_assoc ..)
      · rw [push_of_le (Nat.le_of_not_lt fits), if_neg fits]
        rfl

end Placed

/-- Both checks together are the bound on numbers. -/
theorem map_placeWords (sizes : List UInt64) :
    List.map WordPlacement.toPlacement <$> placeWords sizes = place (sizes.map (·.toNat)) :=
  calc List.map WordPlacement.toPlacement <$> placeWords sizes
    _ = (fun last => last.placements.map WordPlacement.toPlacement)
          <$> sizes.foldlM Placed.push Placed.start := Functor.map_map ..
    _ = id <$> place (sizes.map (·.toNat)) := Placed.foldlM_push sizes Placed.start
    _ = place (sizes.map (·.toNat)) := id_map _

/-- The offset behind some payloads. -/
def reach (sizes : List UInt64) : Nat := payloadBase + (sizes.map (·.toNat)).sum

section Reach

variable {sizes : List UInt64}

theorem reach_take_succ {i : Nat} (below : i < sizes.length) :
    reach (sizes.take (i + 1)) = reach (sizes.take i) + (sizes[i]).toNat := by
  rw [reach, reach, List.take_succ_eq_append_getElem below, List.map_append, List.sum_append,
    List.map_singleton, List.sum_singleton, Nat.add_assoc]

theorem reach_take_mono (sizes : List UInt64) : Monotone fun i => reach (sizes.take i) := by
  refine monotone_nat_of_le_succ fun i => ?_
  by_cases below : i < sizes.length
  · rw [reach_take_succ below]
    exact Nat.le_add_right _ _
  · rw [List.take_of_length_le (Nat.le_of_not_lt below),
      List.take_of_length_le (Nat.le_succ_of_le (Nat.le_of_not_lt below))]

theorem reach_take_le (sizes : List UInt64) (i : Nat) : reach (sizes.take i) ≤ reach sizes := by
  rcases Nat.le_total i sizes.length with low | high
  · calc reach (sizes.take i)
      _ ≤ reach (sizes.take sizes.length) := reach_take_mono sizes low
      _ = reach sizes := by rw [List.take_length]
  · rw [List.take_of_length_le high]

/-- Without payloads there is room in any case. -/
theorem fits_iff : sizes.map (·.toNat) = [] ∨ payloadBase + (sizes.map (·.toNat)).sum < UInt32.size ↔
    reach sizes ≤ 0xffffffff := by
  constructor
  · rintro (empty | fits)
    · rw [reach, empty]
      decide
    · exact Nat.le_of_lt_succ fits
  · exact fun fits => .inr (Nat.lt_succ_of_le fits)

end Reach

/-- Payloads of these sizes in their order, one behind the other. Their ends are words, and no byte belongs
to two of them. -/
structure PlacedExactly (sizes : List UInt64) (places : List WordPlacement) : Prop where
  length : places.length = sizes.length
  size : ∀ (i : Nat) (h : i < places.length) (h' : i < sizes.length),
    (places[i]).size.toNat = (sizes[i]).toNat
  offset : ∀ (i : Nat) (h : i < places.length), (places[i]).offset.toNat = reach (sizes.take i)
  finish : ∀ (i : Nat) (h : i < places.length), ∃ finish, (places[i]).finish? = some finish
    ∧ finish.toNat = reach (sizes.take (i + 1))
    ∧ ∀ h' : i + 1 < places.length, (places[i + 1]).offset = finish
  apart : places.Pairwise fun first second => ∀ pos, ¬(first.Covers pos ∧ second.Covers pos)

section Outcomes

variable {sizes : List UInt64} {places : List WordPlacement} {fault : Fault}

theorem placeWords_eq_ok (placed : placeWords sizes = .ok places) : reach sizes ≤ 0xffffffff
    ∧ places.map WordPlacement.toPlacement = contiguous payloadBase (sizes.map (·.toNat)) := by
  have whole := map_placeWords sizes
  rw [placed] at whole
  obtain ⟨fits, same⟩ := placeFrom_eq_ok_iff.mp whole.symm
  exact ⟨fits_iff.mp fits, same⟩

theorem exists_placeWords_eq_ok_iff :
    (∃ places, placeWords sizes = .ok places) ↔ reach sizes ≤ 0xffffffff := by
  constructor
  · rintro ⟨places, placed⟩
    exact (placeWords_eq_ok placed).1
  · intro fits
    have whole := map_placeWords sizes
    rw [place, placeFrom_eq_ok_iff.mpr ⟨fits_iff.mpr fits, rfl⟩] at whole
    cases placed : placeWords sizes with
    | ok places => exact ⟨places, rfl⟩
    | error fault =>
        rw [placed] at whole
        cases whole

theorem placeWords_eq_error_iff : placeWords sizes = .error fault ↔
    ∃ before size after, sizes = before ++ size :: after ∧ reach before ≤ 0xffffffff
      ∧ 0xffffffff < reach before + size.toNat ∧ fault = .segmentTooLarge size.toNat := by
  have same : placeWords sizes = .error fault ↔ place (sizes.map (·.toNat)) = .error fault := by
    rw [← map_placeWords]
    cases placeWords sizes <;> simp [Functor.map, Except.map]
  rw [same, place, placeFrom_eq_error_iff]
  constructor
  · rintro ⟨_, _, _, split, near, far, rfl⟩
    obtain ⟨before, others, rfl, rfl, rest⟩ := List.map_eq_append_iff.mp split
    obtain ⟨size, after, rfl, rfl, -⟩ := List.map_eq_cons_iff.mp rest
    exact ⟨before, size, after, rfl, fits_iff.mp near, far, rfl⟩
  · rintro ⟨before, size, after, rfl, near, far, rfl⟩
    exact ⟨_, _, _, by rw [List.map_append, List.map_cons], fits_iff.mpr near, far, rfl⟩

theorem placedExactly_of_placeWords (placed : placeWords sizes = .ok places) :
    PlacedExactly sizes places := by
  obtain ⟨fits, same⟩ := placeWords_eq_ok placed
  have length : places.length = sizes.length := by
    simpa [length_contiguous] using congrArg List.length same
  have lies (i : Nat) (h : i < places.length) (h' : i < sizes.length) :
      (places[i]).offset.toNat = reach (sizes.take i) ∧ (places[i]).size.toNat = (sizes[i]).toNat := by
    have here : (places.map WordPlacement.toPlacement)[i]? = _ := congrArg (·[i]?) same
    have inMap : i < (sizes.map (·.toNat)).length := by rwa [List.length_map]
    have inside : i < (contiguous payloadBase (sizes.map (·.toNat))).length := by
      rwa [length_contiguous]
    rw [List.getElem?_map, List.getElem?_eq_getElem h] at here
    rw [List.getElem?_eq_getElem inside, getElem_contiguous _ _ i inMap inside, List.getElem_map,
      ← List.map_take] at here
    exact ⟨congrArg Placement.offset (Option.some.inj here), congrArg Placement.size (Option.some.inj here)⟩
  have ends (i : Nat) (h : i < places.length) : (places[i]).offset.toNat + (places[i]).size.toNat
      = reach (sizes.take (i + 1)) := by
    have h' := length ▸ h
    rw [(lies i h h').1, (lies i h h').2, reach_take_succ h']
  constructor
  case length => exact length
  case size => exact fun i h h' => (lies i h h').2
  case offset => exact fun i h => (lies i h (length ▸ h)).1
  case finish =>
    intro i h
    have within := (ends i h).trans_le ((reach_take_le sizes (i + 1)).trans fits)
    obtain ⟨finish, added, total⟩ := add?_of_lt (Nat.lt_succ_of_le within)
    refine ⟨finish, added, total.trans (ends i h), fun h' => UInt32.toNat_inj.mp ?_⟩
    rw [total, ends i h, (lies (i + 1) h' (length ▸ h')).1]
  case apart =>
    rw [List.pairwise_iff_getElem]
    rintro i j hi hj before pos ⟨⟨-, last⟩, ⟨first, -⟩⟩
    rw [ends i hi] at last
    rw [(lies j hj (length ▸ hj)).1] at first
    have order : reach (sizes.take (i + 1)) ≤ reach (sizes.take j) := reach_take_mono sizes before
    omega

end Outcomes

/-- Payloads are placed if and only if the last one ends within 32 bits, whatever their sizes; then each of
them begins where the one before it ends. Else the first one that ends beyond is reported, and those behind
it are not looked at. -/
theorem placeWords_exact (sizes : List UInt64) :
    List.map WordPlacement.toPlacement <$> placeWords sizes = place (sizes.map (·.toNat)) ∧
    ((∃ places, placeWords sizes = .ok places) ↔ 0x300 + (sizes.map (·.toNat)).sum ≤ 0xffffffff) ∧
    (∀ places, placeWords sizes = .ok places → PlacedExactly sizes places) ∧
    ∀ fault, placeWords sizes = .error fault ↔ ∃ before size after, sizes = before ++ size :: after
      ∧ 0x300 + (before.map (·.toNat)).sum ≤ 0xffffffff
      ∧ 0xffffffff < 0x300 + (before.map (·.toNat)).sum + size.toNat
      ∧ fault = .segmentTooLarge size.toNat :=
  ⟨map_placeWords sizes, exists_placeWords_eq_ok_iff, fun _ => placedExactly_of_placeWords,
    fun _ => placeWords_eq_error_iff⟩

/-- A last payload that ends at the last offset there is, one that ends just beyond, and one whose size is
no word. -/
theorem placeWords_exact_boundary :
    PlacedExactly [1, 0xfffffcfe, 0] [⟨0x300, 1⟩, ⟨0x301, 0xfffffcfe⟩, ⟨0xffffffff, 0⟩] ∧
    ∀ others, placeWords (16 :: 0xfffffcf0 :: others) = .error (.segmentTooLarge 0xfffffcf0)
      ∧ placeWords (16 :: 0x100000000 :: others) = .error (.segmentTooLarge 0x100000000) := by
  refine ⟨(placeWords_exact _).2.2.1 _ rfl, fun others => ⟨?_, ?_⟩⟩
  · exact ((placeWords_exact _).2.2.2 _).mpr ⟨[16], 0xfffffcf0, others, rfl, by decide, by decide, rfl⟩
  · exact ((placeWords_exact _).2.2.2 _).mpr ⟨[16], 0x100000000, others, rfl, by decide, by decide, rfl⟩

end DspFirmware.Container
