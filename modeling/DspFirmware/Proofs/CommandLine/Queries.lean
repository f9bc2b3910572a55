import DspFirmware.CommandLine.Arguments
import DspFirmware.Proofs.Outcome
import DspFirmware.Proofs.Text.Numerals
import DspFirmware.Text.Pieces

/-!
Texts that ask about an address or a source line. Just the texts of one form are read as an address, and
just those of another as a source line, and both are read as the number that their digits spell.
-/

namespace DspFirmware.CommandLine

open Text Numeral

/-- An address in decimal digits, or in hexadecimal ones behind their mark. -/
def SpellsAddress (text : String) (address : UInt32) : Prop :=
  Spells 10 text.toList address.toNat ∨
    ∃ digits, text.toList = '0' :: 'x' :: digits ∧ Spells 16 digits address.toNat

/-- A file, a colon and the number of a line. -/
def SpellsLine (text : String) (query : SourceLine) : Prop :=
  ∃ digits, text.toList = query.file.toList ++ ':' :: digits ∧ Spells 10 digits query.line.toNat

/-- The hexadecimal text of an address spells it. -/
theorem spellsAddress_hexadecimal (address : UInt32) :
    SpellsAddress (Text.hexadecimal address.toNat) address :=
  .inr ⟨_, by simp [Text.hexadecimal, String.toList_append],
    spells_toDigits (by decide) (by decide) address.toNat⟩

theorem spellsLine_decimal (query : SourceLine) :
    SpellsLine (query.file ++ ":" ++ Text.decimal query.line.toNat) query :=
  ⟨_, by simp [Text.decimal, String.toList_append], spells_toDigits (by decide) (by decide) _⟩

section Numerals

variable {radix number : Nat} {text : List Char}

/-- A numeral begins with a digit or a plus sign, and no white space or colon stands in it. -/
theorem isBlank_of_isNumeral (numeral : IsNumeral radix text number) : ∀ c ∈ text, isBlank c = false := by
  obtain ⟨digits, sign, spelled⟩ := isNumeral_iff.mp numeral
  have bare : ∀ c ∈ digits, isBlank c = false := by
    intro c member
    obtain ⟨value, digit⟩ := spelled.exists_digit c member
    have bounds := bounds_of_digitValue? digit
    exact isBlank_of_bounds bounds.1 bounds.2
  rcases sign with rfl | rfl
  · exact bare
  · exact List.forall_mem_cons.mpr ⟨by decide, bare⟩

end Numerals

/-- A text is cut in front of the colon behind which there is no other one. -/
theorem cutAtLastColon_append {behind : List Char} (last : ':' ∉ behind) (front : List Char) :
    cutAtLastColon (front ++ ':' :: behind) = some (front, behind) := by
  rw [cutAtLastColon, dropWhile_reverse_append last, takeWhile_reverse_append last]
  simp

/-- A text without a colon is not cut. -/
theorem cutAtLastColon_eq_some_iff {text front behind : List Char} :
    cutAtLastColon text = some (front, behind) ↔ text = front ++ ':' :: behind ∧ ':' ∉ behind := by
  constructor
  · intro cut
    by_cases colon : ':' ∈ text
    · obtain ⟨first, rest, rfl, last⟩ := exists_eq_append_last colon
      rw [cutAtLastColon_append last] at cut
      cases cut
      exact ⟨rfl, last⟩
    · rw [cutAtLastColon, dropWhile_reverse_of_notMem colon] at cut
      cases cut
  · rintro ⟨rfl, last⟩
    exact cutAtLastColon_append last front

/-- A text for an address, without white space around it: a decimal numeral, or a hexadecimal one behind
its mark. -/
def AddressForm (text : List Char) (address : UInt32) : Prop :=
  ∃ mark numeral, text = mark ++ numeral ∧
    (mark = [] ∧ IsNumeral 10 numeral address.toNat
      ∨ (mark = ['0', 'x'] ∨ mark = ['0', 'X']) ∧ IsNumeral 16 numeral address.toNat)

section Addresses

variable {text digits : List Char} {mark : Char} {address : UInt32}

theorem AddressForm.isBlank (form : AddressForm text address) : ∀ c ∈ text, isBlank c = false := by
  obtain ⟨mark, numeral, rfl, ⟨rfl, decimal⟩ | ⟨rfl | rfl, hexadecimal⟩⟩ := form
  · exact isBlank_of_isNumeral decimal
  · exact List.forall_mem_cons.mpr
      ⟨by decide, List.forall_mem_cons.mpr ⟨by decide, isBlank_of_isNumeral hexadecimal⟩⟩
  · exact List.forall_mem_cons.mpr
      ⟨by decide, List.forall_mem_cons.mpr ⟨by decide, isBlank_of_isNumeral hexadecimal⟩⟩

/-- Behind a zero and the letter of the mark there are hexadecimal digits, since the letter is no decimal
digit. -/
theorem addressForm_marked_iff (letter : mark = 'x' ∨ mark = 'X') :
    AddressForm ('0' :: mark :: digits) address ↔ IsNumeral 16 digits address.toNat := by
  have letterless : digitValue? 10 mark = none := by rcases letter with rfl | rfl <;> decide
  have notDecimal : ¬IsNumeral 10 ('0' :: mark :: digits) address.toNat := by
    intro numeral
    obtain ⟨others, same | same, spelled⟩ := isNumeral_iff.mp numeral
    · obtain ⟨value, digit⟩ := spelled.exists_digit mark (by simp [← same])
      cases letterless.symm.trans digit
    · cases same
  constructor
  · rintro ⟨front, numeral, same, ⟨rfl, decimal⟩ | ⟨rfl | rfl, hexadecimal⟩⟩
    · exact absurd (same ▸ decimal) notDecimal
    · cases same
      exact hexadecimal
    · cases same
      exact hexadecimal
  · intro hexadecimal
    refine ⟨['0', mark], digits, rfl, .inr ⟨?_, hexadecimal⟩⟩
    rcases letter with rfl | rfl
    · exact .inl rfl
    · exact .inr rfl

/-- Without a mark the digits are decimal. -/
theorem addressForm_unmarked_iff (lower : ∀ rest, text ≠ '0' :: 'x' :: rest)
    (upper : ∀ rest, text ≠ '0' :: 'X' :: rest) :
    AddressForm text address ↔ IsNumeral 10 text address.toNat := by
  constructor
  · rintro ⟨front, numeral, same, ⟨rfl, decimal⟩ | ⟨rfl | rfl, hexadecimal⟩⟩
    · exact same ▸ decimal
    · exact absurd same (lower numeral)
    · exact absurd same (upper numeral)
  · exact fun decimal => ⟨[], text, rfl, .inl ⟨rfl, decimal⟩⟩

end Addresses

/-- An address is read from what is left of a text when it has been trimmed. -/
theorem readAddress_eq_ok_iff {text : String} {address : UInt32} :
    readAddress text = .ok address ↔ AddressForm (trim text.toList) address := by
  rw [readAddress]
  generalize trim text.toList = trimmed
  dsimp only
  split
  · rw [Outcome.mapError_eq_ok_iff, readUInt32_eq_ok_iff_isNumeral (by decide),
      addressForm_marked_iff (.inl rfl)]
  · rw [Outcome.mapError_eq_ok_iff, readUInt32_eq_ok_iff_isNumeral (by decide),
      addressForm_marked_iff (.inr rfl)]
  · rename_i lower upper
    rw [Outcome.mapError_eq_ok_iff, readUInt32_eq_ok_iff_isNumeral (by decide),
      addressForm_unmarked_iff (fun rest same => lower rest same) fun rest same => upper rest same]

/-- An address is read from each text that spells it. Decimal digits are not mistaken for marked ones. -/
theorem readAddress_of_spells {text : String} {address : UInt32} (spelled : SpellsAddress text address) :
    readAddress text = .ok address := by
  have form : AddressForm text.toList address := by
    rcases spelled with decimal | ⟨digits, split, hexadecimal⟩
    · exact ⟨[], _, rfl, .inl ⟨rfl, isNumeral_iff.mpr ⟨_, .inl rfl, decimal⟩⟩⟩
    · exact ⟨['0', 'x'], digits, split, .inr ⟨.inl rfl, isNumeral_iff.mpr ⟨_, .inl rfl, hexadecimal⟩⟩⟩
  have trimmed : trim text.toList = text.toList := by
    have bare : trim ([] ++ text.toList ++ []) = text.toList := trim_append nofun form.isBlank nofun
    simpa using bare
  rwa [readAddress_eq_ok_iff, trimmed]

/-- A text for a source line: a file, a colon, and a decimal numeral. The colon is the last one of the
text. -/
def SourceLineForm (text : List Char) (query : SourceLine) : Prop :=
  query.file ≠ "" ∧ ∃ numeral, text = query.file.toList ++ ':' :: numeral ∧ ':' ∉ numeral
    ∧ IsNumeral 10 numeral query.line.toNat

theorem readSourceLine_eq_ok_iff {text : String} {query : SourceLine} :
    readSourceLine text = .ok query ↔ SourceLineForm text.toList query := by
  rw [readSourceLine]
  constructor
  · intro read
    split at read
    · cases read
    rename_i file numeral cut
    split at read
    · cases read
    rename_i named
    split at read
    · rename_i line number
      cases read
      obtain ⟨split, last⟩ := cutAtLastColon_eq_some_iff.mp cut
      refine ⟨by simpa using named, numeral, by simpa using split, last, ?_⟩
      exact (readUInt32_eq_ok_iff_isNumeral (by decide)).mp number
    · cases read
  · rintro ⟨named, numeral, split, last, number⟩
    have nonempty : ¬query.file.toList.isEmpty = true := by simpa using named
    rw [cutAtLastColon_eq_some_iff.mpr ⟨split, last⟩]
    dsimp only
    rw [if_neg nonempty, (readUInt32_eq_ok_iff_isNumeral (by decide)).mpr number, String.ofList_toList]

/-- A source line is read from each text that spells it, whatever colons its file name holds. -/
theorem readSourceLine_of_spells {text : String} {query : SourceLine} (named : query.file ≠ "")
    (spelled : SpellsLine text query) : readSourceLine text = .ok query := by
  obtain ⟨digits, split, number⟩ := spelled
  have last : ':' ∉ digits := by
    intro member
    obtain ⟨value, digit⟩ := number.exists_digit ':' member
    cases digit
  exact readSourceLine_eq_ok_iff.mpr
    ⟨named, digits, split, last, isNumeral_iff.mpr ⟨_, .inl rfl, number⟩⟩

/-- An address is read from just the texts of its form, with any white space around them, and from no
others. The text that is printed for an address is one of them. -/
theorem readAddress_grammar :
    (∀ text address, readAddress text = .ok address ↔
      ∃ before core behind, text.toList = before ++ core ++ behind
        ∧ (∀ c ∈ before ++ behind, isBlank c = true) ∧ AddressForm core address) ∧
    ∀ address : UInt32, readAddress (Text.hexadecimal address.toNat) = .ok address := by
  refine ⟨fun text address => ?_, fun address => readAddress_of_spells (spellsAddress_hexadecimal address)⟩
  rw [readAddress_eq_ok_iff]
  constructor
  · intro form
    obtain ⟨before, behind, split, front, back⟩ := exists_trim_append text.toList
    exact ⟨before, _, behind, split, List.forall_mem_append.mpr ⟨front, back⟩, form⟩
  · rintro ⟨before, core, behind, split, blank, form⟩
    obtain ⟨front, back⟩ := List.forall_mem_append.mp blank
    rwa [split, trim_append front form.isBlank back]

/-- Blanks of several scripts, a sign behind the mark, and leading zeros. -/
example : readAddress "\u3000\t0X+00fF\u0085" = .ok 255 := by decide

/-- A source line is read from just the texts of its form. What is printed for one is read as the same one,
unless its file has no name. -/
theorem readSourceLine_grammar :
    (∀ text query, readSourceLine text = .ok query ↔ SourceLineForm text.toList query) ∧
    ∀ query : SourceLine, readSourceLine (query.file ++ ":" ++ Text.decimal query.line.toNat) = .ok query
      ↔ query.file ≠ "" := by
  refine ⟨fun text query => readSourceLine_eq_ok_iff, fun query => ⟨fun read => ?_, fun named => ?_⟩⟩
  · exact (readSourceLine_eq_ok_iff.mp read).1
  · exact readSourceLine_of_spells named (spellsLine_decimal query)

end DspFirmware.CommandLine
