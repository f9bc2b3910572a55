import Mathlib.Data.List.Forall2
import Mathlib.Data.Nat.Digits.Defs
import DspFirmware.Text.Numeral

/-!
Which numbers digits spell, and that numerals are read as these numbers: any digits with at most one plus
sign in front of them, as long as the number is below the limit. Digits are the ones of ASCII, and behind
nine its letters in either case. Printed numbers are spelled by their digits.
-/

namespace DspFirmware.Text.Numeral

/-- Characters that are digits, with their values. -/
abbrev HaveValues (radix : Nat) : List Char → List Nat → Prop :=
  List.Forall₂ fun c value => digitValue? radix c = some value

/-- Digits, the most significant first, spell a number. There is at least one of them. -/
def Spells (radix : Nat) (digits : List Char) (number : Nat) : Prop :=
  digits ≠ [] ∧ ∃ values, HaveValues radix digits values ∧ Nat.ofDigits radix values.reverse = number

/-- A character of ASCII and its value as a digit. -/
def IsDigit (radix : Nat) (c : Char) (value : Nat) : Prop :=
  value < radix ∧ (value < 10 ∧ c.toNat = '0'.toNat + value ∨
    10 ≤ value ∧ value < 36 ∧ (c.toNat = 'a'.toNat + (value - 10) ∨ c.toNat = 'A'.toNat + (value - 10)))

/-- At most one plus sign and digits behind it, the most significant first, for a number. -/
def IsNumeral (radix : Nat) (text : List Char) (number : Nat) : Prop :=
  ∃ sign digits values, text = sign ++ digits ∧ (sign = [] ∨ sign = ['+']) ∧ digits ≠ []
    ∧ List.Forall₂ (IsDigit radix) digits values ∧ Nat.ofDigits radix values.reverse = number

section Digits

variable {radix : Nat} {c : Char} {value : Nat}

theorem digitValue?_eq_some_iff : digitValue? radix c = some value ↔ IsDigit radix c value := by
  have between {low high : Char} : low ≤ c ∧ c ≤ high ↔ low.toNat ≤ c.toNat ∧ c.toNat ≤ high.toNat :=
    Iff.rfl
  have codes : '0'.toNat = 48 ∧ '9'.toNat = 57 ∧ 'a'.toNat = 97 ∧ 'z'.toNat = 122 ∧ 'A'.toNat = 65
      ∧ 'Z'.toNat = 90 := ⟨rfl, rfl, rfl, rfl, rfl, rfl⟩
  obtain ⟨zero, nine, a, z, A, Z⟩ := codes
  simp only [digitValue?, IsDigit, between, Option.filter_eq_some_iff, decide_eq_true_eq, zero, nine, a, z,
    A, Z]
  rw [and_comm]
  refine and_congr_right fun small => ?_
  split_ifs with digit lower upper <;> simp only [Option.some.injEq, false_iff] <;> omega

/-- All digits lie between the first digit and the last letter of ASCII. -/
theorem bounds_of_digitValue? (digit : digitValue? radix c = some value) :
    48 ≤ c.toNat ∧ c.toNat ≤ 122 := by
  have codes : '0'.toNat = 48 ∧ 'a'.toNat = 97 ∧ 'A'.toNat = 65 := ⟨rfl, rfl, rfl⟩
  obtain ⟨-, place⟩ := digitValue?_eq_some_iff.mp digit
  omega

/-- Each digit up to fifteen is written by a character that is read as this digit. -/
theorem digitValue?_digitChar (small : radix ≤ 16) (below : value < radix) :
    digitValue? radix value.digitChar = some value := by
  have all : ∀ radix ≤ 16, ∀ value < radix, digitValue? radix value.digitChar = some value := by decide
  exact all radix small value below

end Digits

theorem Spells.exists_digit {radix number : Nat} {digits : List Char}
    (spelled : Spells radix digits number) :
    ∀ c ∈ digits, ∃ value, digitValue? radix c = some value := by
  obtain ⟨-, values, each, -⟩ := spelled
  have both := each.imp fun c value digit => And.intro (Exists.intro value digit) digit
  exact ((List.forall₂_and_left _ _).mp both).1

section Reading

variable {radix limit number : Nat} {digits text : List Char}

/-- A number with further digits behind its own. -/
def extended (radix value : Nat) (values : List Nat) : Nat :=
  values.foldl (fun before digit => before * radix + digit) value

theorem le_extended (positive : 0 < radix) (value : Nat) (values : List Nat) :
    value ≤ extended radix value values := by
  induction values generalizing value with
  | nil => exact Nat.le_refl value
  | cons digit rest ih =>
      calc value
        _ ≤ value * radix := Nat.le_mul_of_pos_right value positive
        _ ≤ value * radix + digit := Nat.le_add_right _ _
        _ ≤ extended radix value (digit :: rest) := ih (value * radix + digit)

theorem extended_zero (radix : Nat) (values : List Nat) :
    extended radix 0 values = Nat.ofDigits radix values.reverse := by
  rw [Nat.ofDigits_eq_foldr, List.foldr_reverse, extended]
  congr 1
  funext before digit
  rw [Nat.mul_comm, Nat.add_comm, Nat.cast_id]

/-- A number is continued by the values of further digits. It stays below the limit all the way if it
does in the end, since digits never make it smaller. -/
theorem continued_eq_ok_iff (positive : 0 < radix) {value : Nat} (below : value < limit) :
    continued radix limit value digits = .ok number ↔ number < limit ∧
      ∃ values, HaveValues radix digits values ∧ extended radix value values = number := by
  induction digits generalizing value with
  | nil =>
      rw [continued]
      constructor
      · rintro ⟨⟩
        exact ⟨below, [], .nil, rfl⟩
      · rintro ⟨-, _, ⟨⟩, rfl⟩
        rfl
  | cons c rest ih =>
      rw [continued]
      cases read : digitValue? radix c with
      | none =>
          constructor
          · rintro ⟨⟩
          · rintro ⟨-, _, (_ | ⟨digit, _⟩), -⟩
            cases read.symm.trans digit
      | some digit =>
          dsimp only
          have tail :
              (∃ values, HaveValues radix (c :: rest) values ∧ extended radix value values = number) ↔
              ∃ values, HaveValues radix rest values
                ∧ extended radix (value * radix + digit) values = number := by
            constructor
            · rintro ⟨_, (_ | ⟨same, others⟩), total⟩
              cases read.symm.trans same
              exact ⟨_, others, total⟩
            · rintro ⟨values, others, total⟩
              exact ⟨digit :: values, .cons read others, total⟩
          rw [tail]
          by_cases fits : value * radix + digit < limit
          · rw [if_pos fits, ih fits]
          · rw [if_neg fits]
            constructor
            · rintro ⟨⟩
            · rintro ⟨small, values, -, rfl⟩
              exact absurd (Nat.lt_of_le_of_lt (le_extended positive _ values) small) fits

theorem not_spells_nil : ¬Spells radix [] number := fun spelled => spelled.1 rfl

/-- A sign is no digit. -/
theorem not_spells_plus : ¬Spells radix ('+' :: digits) number := by
  rintro ⟨-, _, (_ | ⟨digit, _⟩), -⟩
  exact absurd (bounds_of_digitValue? digit).1 (by decide)

/-- A text is read as the number that its digits spell. They may stand behind a plus sign. -/
theorem read_eq_ok_iff (positive : 0 < radix) (room : 0 < limit) :
    read radix limit text = .ok number ↔ number < limit ∧
      ∃ digits, (text = digits ∨ text = '+' :: digits) ∧ Spells radix digits number := by
  have unsigned {digits : List Char} (any : digits ≠ []) :
      continued radix limit 0 digits = .ok number ↔ number < limit ∧ Spells radix digits number := by
    rw [continued_eq_ok_iff positive room, Spells]
    simp only [extended_zero, any, ne_eq, not_false_eq_true, true_and]
  fun_cases read radix limit text with
  | case1 => simp [not_spells_nil]
  | case2 => simp [not_spells_nil, not_spells_plus]
  | case3 digits any =>
      rw [unsigned any]
      simp [not_spells_plus]
  | case4 digits any _ unmarked =>
      have bare (digits : List Char) : text = digits ∨ text = '+' :: digits ↔ text = digits :=
        or_iff_left (unmarked digits)
      rw [unsigned any]
      simp only [bare, exists_eq_left']

/-- The same for machine words, which hold all numbers below the limit. -/
theorem readUInt32_eq_ok_iff (positive : 0 < radix) {word : UInt32} :
    readUInt32 radix text = .ok word ↔
      ∃ digits, (text = digits ∨ text = '+' :: digits) ∧ Spells radix digits word.toNat := by
  have same : readUInt32 radix text = .ok word ↔ read radix UInt32.size text = .ok word.toNat := by
    rw [readUInt32]
    cases found : read radix UInt32.size text with
    | error defect => simp [Except.map]
    | ok number =>
        have below : number < UInt32.size := ((read_eq_ok_iff positive (by decide)).mp found).1
        simp only [Except.map, Except.ok.injEq, ← UInt32.toNat_inj, UInt32.toNat_ofNat_of_lt' below]
  rw [same, read_eq_ok_iff positive (by decide)]
  exact and_iff_right word.toNat_lt

theorem isNumeral_iff : IsNumeral radix text number ↔
    ∃ digits, (text = digits ∨ text = '+' :: digits) ∧ Spells radix digits number := by
  simp only [Spells, HaveValues, digitValue?_eq_some_iff]
  constructor
  · rintro ⟨sign, digits, values, rfl, rfl | rfl, any, each, total⟩
    · exact ⟨digits, .inl rfl, any, values, each, total⟩
    · exact ⟨digits, .inr rfl, any, values, each, total⟩
  · rintro ⟨digits, rfl | rfl, any, values, each, total⟩
    · exact ⟨[], _, values, rfl, .inl rfl, any, each, total⟩
    · exact ⟨['+'], _, values, rfl, .inr rfl, any, each, total⟩

theorem readUInt32_eq_ok_iff_isNumeral (positive : 0 < radix) {word : UInt32} :
    readUInt32 radix text = .ok word ↔ IsNumeral radix text word.toNat := by
  rw [readUInt32_eq_ok_iff positive, isNumeral_iff]

end Reading

section Printing

variable {radix : Nat}

/-- A number is spelled by the digits that are printed for it. -/
theorem spells_toDigits (several : 1 < radix) (small : radix ≤ 16) (number : Nat) :
    Spells radix (Nat.toDigits radix number) number := by
  induction number using Nat.strong_induction_on with
  | _ number ih =>
      rw [Nat.toDigits_eq_if several]
      split
      · rename_i below
        refine ⟨List.cons_ne_nil _ _, [number], .cons (digitValue?_digitChar small below) .nil, ?_⟩
        exact Nat.ofDigits_singleton
      · rename_i above
        have positive : 0 < radix := Nat.zero_lt_of_lt several
        obtain ⟨-, values, spelled, total⟩ := ih (number / radix) (Nat.div_lt_self (by omega) several)
        have last := digitValue?_digitChar small (Nat.mod_lt number positive)
        refine ⟨by simp, values ++ [number % radix], List.rel_append spelled (.cons last .nil), ?_⟩
        rw [List.reverse_append, List.reverse_singleton, List.singleton_append, Nat.ofDigits_cons, total]
        exact Nat.mod_add_div number radix

end Printing

end DspFirmware.Text.Numeral
