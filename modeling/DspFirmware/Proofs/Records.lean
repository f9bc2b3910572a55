import DspFirmware.Proofs.Fields
import DspFirmware.Proofs.Reading

/-!
Reading records of a fixed size. An operation takes records when it succeeds exactly if so many bytes
lie ahead and they have the right form, and then has read them and nothing else. Sequences of such
operations take the records that have the forms of their parts one behind the other.
-/

namespace DspFirmware

namespace Read

open Reader

/-- The operation reads `count` bytes, and answers what they have the form of. -/
def Takes (operation : Read α) (count : Nat) (form : Bytes → α → Prop) : Prop :=
  ∀ ⦃r answer s⦄, operation r = .ok answer s ↔
    ∃ enough : count ≤ r.rest.length,
      form (r.rest.take count) answer ∧ s = r.advance count enough

theorem Takes.congr {operation : Read α} {count : Nat} {form other : Bytes → α → Prop}
    (h : Takes operation count form)
    (same : ∀ run answer, run.length = count → (form run answer ↔ other run answer)) :
    Takes operation count other := by
  intro r answer s
  rw [h]
  refine exists_congr fun enough => and_congr_left fun _ => ?_
  exact same _ _ (List.length_take_of_le enough)

theorem takes_pure (value : α) : Takes (pure value) 0 (fun _ answer => answer = value) := by
  intro r answer s
  have still (enough : 0 ≤ r.rest.length) : r.advance 0 enough = r := ext_pos rfl rfl
  rw [pure_eq_ok]
  simp [still, eq_comm]

theorem Takes.bind {operation : Read α} {next : α → Read β} {first second : Nat}
    {form : Bytes → α → Prop} {later : α → Bytes → β → Prop} (left : Takes operation first form)
    (right : ∀ middle, Takes (next middle) second (later middle)) :
    Takes (operation >>= next) (first + second)
      (fun run answer => ∃ middle, form (run.take first) middle
        ∧ later middle (run.drop first) answer) := by
  intro r answer s
  have taken : (r.rest.take (first + second)).take first = r.rest.take first := by
    rw [List.take_take, Nat.min_eq_left (Nat.le_add_right _ _)]
  have behind : (r.rest.take (first + second)).drop first = (r.rest.drop first).take second := by
    rw [List.drop_take, Nat.add_sub_cancel_left]
  have moved (enough : first ≤ r.rest.length)
      (further : second ≤ (r.advance first enough).rest.length)
      (all : first + second ≤ r.rest.length) :
      (r.advance first enough).advance second further = r.advance (first + second) all :=
    ext_pos rfl (Nat.add_assoc _ _ _)
  rw [bind_eq_ok]
  dsimp only
  rw [taken, behind]
  constructor
  · rintro ⟨middle, t, done, after⟩
    obtain ⟨enough, hForm, rfl⟩ := left.mp done
    obtain ⟨further, hLater, rfl⟩ := (right middle).mp after
    have all : first + second ≤ r.rest.length := by
      change second ≤ (r.rest.drop first).length at further
      rw [List.length_drop] at further
      omega
    exact ⟨all, ⟨middle, hForm, hLater⟩, moved enough further all⟩
  · rintro ⟨all, ⟨middle, hForm, hLater⟩, rfl⟩
    have enough : first ≤ r.rest.length := by omega
    have further : second ≤ (r.advance first enough).rest.length := by
      change second ≤ (r.rest.drop first).length
      rw [List.length_drop]
      omega
    exact ⟨middle, r.advance first enough, left.mpr ⟨enough, hForm, rfl⟩,
      (right middle).mpr ⟨further, hLater, (moved enough further all).symm⟩⟩

/-- The end of a sequence: what comes behind the last operation reads nothing. -/
theorem Takes.bind_pure {operation : Read α} {f : α → β} {count : Nat} {form : Bytes → α → Prop}
    (h : Takes operation count form) :
    Takes (operation >>= fun a => pure (f a)) count
      (fun run answer => ∃ middle, form run middle ∧ answer = f middle) :=
  (h.bind fun middle => takes_pure (f middle)).congr fun run answer length => by
    have all : run.take count = run := List.take_of_length_le (Nat.le_of_eq length)
    rw [all]

/-- A check in front of a sequence that goes on behind it. -/
theorem Takes.guard {operation refusal : Read α} {count : Nat} {form : Bytes → α → Prop} {c : Prop}
    [Decidable c] (h : Takes operation count form)
    (refused : ∀ r answer s, refusal r ≠ .ok answer s) :
    Takes (if c then operation else refusal) count (fun run answer => c ∧ form run answer) := by
  intro r answer s
  by_cases holds : c
  · rw [if_pos holds, h]
    simp only [holds, true_and]
  · rw [if_neg holds]
    simp [holds, refused r answer s]

theorem takes_bytes (count : Nat) : Takes (bytes count) count (fun run answer => answer = run) := by
  intro r answer s
  by_cases enough : count ≤ r.rest.length
  · rw [bytes_of_le enough]
    simp [enough, eq_comm]
  · rw [bytes_of_lt (Nat.lt_of_not_le enough)]
    simp [enough]

theorem takes_block (count : Nat) :
    Takes (Read.block count) count (fun run answer => answer.val = run) := by
  intro r answer s
  rw [Read.block]
  by_cases enough : count ≤ r.rest.length
  · rw [dif_pos (Bytes.holds_iff.mpr enough)]
    simp [enough, eq_comm, Subtype.ext_iff]
  · rw [dif_neg (fun held => enough (Bytes.holds_iff.mp held))]
    simp [enough]

theorem takes_skip (count : Nat) : Takes (skip count) count (fun _ _ => True) :=
  (takes_bytes count).bind_pure.congr fun run answer _ => by simp

theorem takes_word (width : Nat) :
    Takes (word width) width (fun run answer => answer = run.ofLittleEndian) :=
  (takes_bytes width).bind_pure.congr fun run answer _ => by simp

theorem takes_uint8 : Takes uint8 1 (fun run answer => answer.toNat = run.ofLittleEndian) :=
  (takes_word 1).bind_pure.congr fun run answer length => by
    have fits : run.ofLittleEndian < 256 ^ 1 := length ▸ Bytes.ofLittleEndian_lt run
    have back : (UInt8.ofNat run.ofLittleEndian).toNat = run.ofLittleEndian :=
      UInt8.toNat_ofNat_of_lt' fits
    simp [← UInt8.toNat_inj, back]

theorem takes_uint16 : Takes uint16 2 (fun run answer => answer.toNat = run.ofLittleEndian) :=
  (takes_word 2).bind_pure.congr fun run answer length => by
    have fits : run.ofLittleEndian < 256 ^ 2 := length ▸ Bytes.ofLittleEndian_lt run
    have back : (UInt16.ofNat run.ofLittleEndian).toNat = run.ofLittleEndian :=
      UInt16.toNat_ofNat_of_lt' fits
    simp [← UInt16.toNat_inj, back]

theorem takes_uint32 : Takes uint32 4 (fun run answer => answer.toNat = run.ofLittleEndian) :=
  (takes_word 4).bind_pure.congr fun run answer length => by
    have fits : run.ofLittleEndian < 256 ^ 4 := length ▸ Bytes.ofLittleEndian_lt run
    have back : (UInt32.ofNat run.ofLittleEndian).toNat = run.ofLittleEndian :=
      UInt32.toNat_ofNat_of_lt' fits
    simp [← UInt32.toNat_inj, back]

theorem seek_eq_ok_iff {pos : Nat} {r s : Reader} {answer : Unit} :
    seek pos r = .ok answer s ↔ ∃ inside : pos ≤ r.data.length, s = r.moveTo pos inside := by
  by_cases inside : pos ≤ r.data.length
  · rw [seek_of_le inside]
    simp [inside, eq_comm]
  · rw [seek_of_lt (Nat.lt_of_not_le inside)]
    simp [inside]

end Read

end DspFirmware
