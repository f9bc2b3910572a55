import DspFirmware.Text.Latin1

/-!
Which texts can stand in a terminated field of a binary file, and that nothing of them is lost there.
What is read there ends at the first zero byte, whatever follows it.
-/

namespace DspFirmware.Text

/-- A text that a terminated field can hold: no zero, and each character a byte. -/
def Nameable (name : String) : Prop := ∀ c ∈ name.toList, 0 < c.toNat ∧ c.toNat < 256

instance (name : String) : Decidable (Nameable name) :=
  List.decidableBAll (fun c : Char => 0 < c.toNat ∧ c.toNat < 256) name.toList

theorem latin1_latin1Bytes {name : String} (h : Nameable name) : latin1 (latin1Bytes name) = name := by
  have back : ∀ c ∈ name.toList, charOfByte (UInt8.ofNat c.toNat) = c := by
    intro c member
    have low : (UInt8.ofNat c.toNat).toNat = c.toNat := UInt8.toNat_ofNat_of_lt' (h c member).2
    rw [charOfByte, low, Char.ofNat_toNat]
  have chars : name.toList.map (charOfByte ∘ fun c => UInt8.ofNat c.toNat) = name.toList :=
    (List.map_congr_left back).trans (List.map_id name.toList)
  rw [latin1, latin1Bytes, List.map_map, chars, String.ofList_toList]

theorem zero_notMem_latin1Bytes {name : String} (h : Nameable name) : 0 ∉ latin1Bytes name := by
  intro member
  obtain ⟨c, hc, zero⟩ := List.mem_map.mp member
  have low : (UInt8.ofNat c.toNat).toNat = c.toNat := UInt8.toNat_ofNat_of_lt' (h c hc).2
  have positive := (h c hc).1
  rw [zero] at low
  exact absurd low (by simp; omega)

@[simp] theorem length_latin1 (bytes : Bytes) : (latin1 bytes).length = bytes.length := by
  simp [latin1]

/-- The characters of a text made of bytes have the codes of those bytes. -/
theorem latin1Bytes_latin1 (bytes : Bytes) : latin1Bytes (latin1 bytes) = bytes := by
  have back : ∀ byte ∈ bytes, UInt8.ofNat (charOfByte byte).toNat = byte := by
    intro byte _
    rw [toNat_charOfByte, UInt8.ofNat_toNat]
  simp only [latin1Bytes, latin1, String.toList_ofList, List.map_map]
  exact (List.map_congr_left back).trans (List.map_id bytes)

theorem nameable_latin1 {bytes : Bytes} (nonzero : 0 ∉ bytes) : Nameable (latin1 bytes) := by
  intro c member
  simp only [latin1, String.toList_ofList, List.mem_map] at member
  obtain ⟨byte, inside, rfl⟩ := member
  rw [toNat_charOfByte]
  have filled : byte.toNat ≠ 0 := by
    intro zero
    have same : byte = 0 := UInt8.toNat_inj.mp zero
    exact nonzero (same ▸ inside)
  exact ⟨Nat.pos_of_ne_zero filled, byte.toNat_lt⟩

theorem ofList_drop_latin1 (bytes : Bytes) (count : Nat) :
    String.ofList ((latin1 bytes).toList.drop count) = latin1 (bytes.drop count) := by
  simp [latin1, List.map_drop]

/-- A text in ASCII without a zero. Its characters are its bytes in UTF-8. -/
def Ascii (name : String) : Prop := ∀ c ∈ name.toList, 0 < c.toNat ∧ c.toNat < 128

instance (name : String) : Decidable (Ascii name) :=
  List.decidableBAll (fun c : Char => 0 < c.toNat ∧ c.toNat < 128) name.toList

theorem Ascii.nameable {name : String} (h : Ascii name) : Nameable name := by
  intro c member
  obtain ⟨positive, small⟩ := h c member
  exact ⟨positive, by omega⟩

theorem utf8_of_ascii {name : String} (h : Ascii name) : utf8 name = latin1Bytes name := by
  rw [Ascii] at h
  rw [utf8, latin1Bytes]
  generalize name.toList = chars at h ⊢
  induction chars with
  | nil => rfl
  | cons c rest ih =>
      have small : c.val.toNat ≤ 0x7f := Nat.le_of_lt_succ (h c List.mem_cons_self).2
      have single : String.utf8EncodeChar c = [UInt8.ofNat c.toNat] := if_pos small
      rw [List.flatMap_cons, List.map_cons, single, List.singleton_append,
        ih fun other member => h other (List.mem_cons_of_mem c member)]

/-- Bytes without a zero are read up to the zero behind them. -/
theorem untilZero_append {name : Bytes} (h : 0 ∉ name) (ahead : Bytes) :
    untilZero (name ++ 0 :: ahead) = name := by
  rw [untilZero, List.takeWhile_append_of_pos]
  · simp
  · intro byte member
    simpa using fun zero : byte = 0 => h (zero ▸ member)

/-- A zero among the first bytes ends a text there, whatever follows them. -/
theorem untilZero_take {bytes : Bytes} {count : Nat} (found : 0 ∈ bytes.take count) :
    untilZero (bytes.take count) = untilZero bytes := by
  induction bytes generalizing count with
  | nil => simp
  | cons byte rest ih =>
      cases count with
      | zero => simp at found
      | succ count =>
          rw [List.take_succ_cons] at found ⊢
          simp only [untilZero, List.takeWhile_cons]
          by_cases zero : byte = 0
          · simp [zero]
          · have later : 0 ∈ rest.take count :=
              (List.mem_cons.mp found).resolve_left (Ne.symm zero)
            simpa [zero, untilZero] using ih later

end DspFirmware.Text
