import DspFirmware.LineTable.Section
import DspFirmware.Proofs.LineTable.Prologue
import DspFirmware.Proofs.LineTable.RoundTrip

/-!
Sections are walked program by program. Programs that stand in front of others are read as they are
alone, and a question that they leave open goes on to the others.
-/

namespace DspFirmware.LineTable

theorem programs_nil : programs [] = [] := by
  rw [programs, readings, if_pos rfl, List.map_nil]

theorem programs_of_ok {data : Bytes} {program : Program} (h : Program.parse data = .ok program) :
    programs data = .ok program :: programs (data.drop program.header.totalLength) := by
  have filled : data ≠ [] := by
    rintro rfl
    have short := Program.totalLength_le h
    rw [Header.totalLength, List.length_nil] at short
    omega
  rw [programs, readings, if_neg filled]
  simp only [h, List.map_cons]
  rfl

theorem programs_of_error {data : Bytes} {error : DecodeError} (filled : data ≠ [])
    (h : Program.parse data = .error error) : programs data = [.error error] := by
  rw [programs, readings, if_neg filled]
  simp only [h, List.map_cons, List.map_nil]

/-- Induction over a section: one step for each program of it, and two ends. -/
theorem section_induction {motive : Bytes → Prop} (nil : motive [])
    (error : ∀ data error, data ≠ [] → Program.parse data = .error error → motive data)
    (ok : ∀ data program, Program.parse data = .ok program →
      motive (data.drop program.header.totalLength) → motive data)
    (data : Bytes) : motive data := by
  induction size : data.length using Nat.strongRecOn generalizing data with
  | _ size ih =>
      by_cases filled : data = []
      · exact filled ▸ nil
      · cases read : Program.parse data with
        | error cause => exact error data cause filled read
        | ok program =>
            refine ok data program read (ih _ ?_ _ rfl)
            have inside := Program.totalLength_le read
            rw [Header.totalLength] at inside
            rw [List.length_drop, Header.totalLength]
            omega

/-- Nothing is read behind a program that cannot be read. -/
theorem eq_nil_of_programs_eq {data : Bytes} {earlier later : List (Except DecodeError Program)}
    {error : DecodeError} (h : programs data = earlier ++ .error error :: later) : later = [] := by
  induction data using section_induction generalizing earlier with
  | nil =>
      rw [programs_nil] at h
      simp at h
  | error data cause filled read =>
      rw [programs_of_error filled read] at h
      cases earlier with
      | nil => exact (List.cons.inj h).2.symm
      | cons first earlier => simp at h
  | ok data program read ih =>
      rw [programs_of_ok read] at h
      cases earlier with
      | nil => simp at h
      | cons first earlier => exact ih (List.cons.inj h).2

/-- A section of programs that can all be read is read alike with other bytes behind it. -/
theorem programs_append_of_ok {first : Bytes} (second : Bytes)
    (decoded : ∀ item ∈ programs first, ∃ program, item = .ok program) :
    programs (first ++ second) = programs first ++ programs second := by
  induction first using section_induction with
  | nil => rw [programs_nil, List.nil_append, List.nil_append]
  | error first cause filled read =>
      rw [programs_of_error filled read] at decoded
      obtain ⟨program, impossible⟩ := decoded (.error cause) (by simp)
      cases impossible
  | ok first program read ih =>
      have inside := Program.totalLength_le read
      rw [programs_of_ok read] at decoded ⊢
      rw [programs_of_ok (Program.parse_append read second),
        List.drop_append_of_le_length inside,
        ih fun item member => decoded item (by simp [member]), List.cons_append]

/-- A question goes on to further programs when it is left open. -/
theorem firstAnswer_append (ask : Program → Except Fault (Option α))
    (items others : List (Except DecodeError Program)) :
    firstAnswer ask (items ++ others) =
      match firstAnswer ask items with
      | .ok none => firstAnswer ask others
      | settled => settled := by
  induction items with
  | nil => rfl
  | cons item items ih =>
      cases item with
      | error error => rfl
      | ok program =>
          rw [List.cons_append, firstAnswer, firstAnswer]
          cases ask program with
          | error cause => rfl
          | ok answer =>
              cases answer with
              | none => exact ih
              | some answer => rfl

/-- Programs that can all be read stand for themselves in front of other bytes, readable or not: they
are followed by the programs of those bytes, and each question goes on to them only when it is left
open. A program that cannot be read ends every section. -/
theorem programs_append (first second : Bytes)
    (decoded : ∀ item ∈ programs first, ∃ program, item = .ok program) :
    programs (first ++ second) = programs first ++ programs second
      ∧ (∀ address,
          (lookupAddress first address ≠ .ok none →
            lookupAddress (first ++ second) address = lookupAddress first address)
          ∧ (lookupAddress first address = .ok none →
            lookupAddress (first ++ second) address = lookupAddress second address))
      ∧ (∀ query line,
          (lookupLocation first query line ≠ .ok none →
            lookupLocation (first ++ second) query line = lookupLocation first query line)
          ∧ (lookupLocation first query line = .ok none →
            lookupLocation (first ++ second) query line = lookupLocation second query line))
      ∧ ∀ data earlier error later, programs data = earlier ++ .error error :: later →
          later = [] := by
  have joined := programs_append_of_ok second decoded
  have settled {α : Type} (ask : Program → Except Fault (Option α)) :
      (firstAnswer ask (programs first) ≠ .ok none →
          firstAnswer ask (programs (first ++ second)) = firstAnswer ask (programs first))
        ∧ (firstAnswer ask (programs first) = .ok none →
          firstAnswer ask (programs (first ++ second)) = firstAnswer ask (programs second)) := by
    rw [joined, firstAnswer_append]
    constructor
    · intro answered
      split
      · rename_i left
        exact absurd left answered
      · rfl
    · intro left
      rw [left]
  exact ⟨joined, fun address => settled _, fun query line => settled _,
    fun data earlier error later h => eq_nil_of_programs_eq h⟩

/-- A program answers in front of three bytes that are none. -/
theorem programs_append_garbage :
    (∀ item ∈ programs Draft.sample.encode, ∃ program, item = .ok program)
      ∧ (programs (Draft.sample.encode ++ [1, 2, 3])).length = 2
      ∧ lookupAddress (Draft.sample.encode ++ [1, 2, 3]) 12
          = .ok (some ⟨12, "src", "a.c", 6, 0⟩)
      ∧ lookupAddress (Draft.sample.encode ++ [1, 2, 3]) 13
          = .error (.fault (.outOfBounds 0 4 3)) := by
  have alone : (programs Draft.sample.encode).length = 1
      ∧ ∀ item ∈ programs Draft.sample.encode, item.isOk := by decide +kernel
  have decoded : ∀ item ∈ programs Draft.sample.encode, ∃ program, item = .ok program := by
    intro item member
    have fine := alone.2 item member
    cases item with
    | error error => cases fine
    | ok program => exact ⟨program, rfl⟩
  obtain ⟨joined, addresses, _, _⟩ := programs_append Draft.sample.encode [1, 2, 3] decoded
  have garbage : (programs [1, 2, 3]).length = 1
      ∧ lookupAddress [1, 2, 3] 13 = .error (.fault (.outOfBounds 0 4 3)) := by decide +kernel
  have known : lookupAddress Draft.sample.encode 12 = .ok (some ⟨12, "src", "a.c", 6, 0⟩)
      ∧ lookupAddress Draft.sample.encode 13 = .ok none := by decide +kernel
  refine ⟨decoded, ?_, ?_, ?_⟩
  · rw [joined, List.length_append, alone.1, garbage.1]
  · rw [(addresses 12).1 (by rw [known.1]; decide), known.1]
  · rw [(addresses 13).2 known.2, garbage.2]

end DspFirmware.LineTable
