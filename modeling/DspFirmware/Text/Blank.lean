import DspFirmware.Text.Ranges

/-!
White space in the sense of Unicode, and texts without it at their ends.
-/

namespace DspFirmware.Text

/-- The characters with the property White_Space, as ranges of codes. -/
def blankRanges : Ranges :=
  [(0x09, 0x0d), (0x20, 0x20), (0x85, 0x85), (0xa0, 0xa0), (0x1680, 0x1680), (0x2000, 0x200a),
    (0x2028, 0x2029), (0x202f, 0x202f), (0x205f, 0x205f), (0x3000, 0x3000)]

def isBlank (c : Char) : Bool := blankRanges.has c

/-- Every character that counts as white space in ASCII is white space. -/
theorem isBlank_of_isWhitespace {c : Char} (h : c.isWhitespace = true) : isBlank c = true := by
  simp only [Char.isWhitespace, Bool.or_eq_true, decide_eq_true_eq] at h
  rcases h with ((rfl | rfl) | rfl) | rfl <;> rfl

/-- All white space in ASCII lies in front of the digits and letters. -/
theorem isBlank_of_bounds {c : Char} (low : 48 ≤ c.toNat) (high : c.toNat ≤ 122) : isBlank c = false := by
  rw [Bool.eq_false_iff]
  intro blank
  simp only [isBlank, Ranges.has_iff, blankRanges, List.mem_cons, List.not_mem_nil, or_false] at blank
  obtain ⟨range, member, first, last⟩ := blank
  rcases member with rfl | rfl | rfl | rfl | rfl | rfl | rfl | rfl | rfl | rfl <;> simp_all <;> omega

/-- A text without white space at its beginning. -/
def trimStart (text : List Char) : List Char := text.dropWhile isBlank

def trim (text : List Char) : List Char := (trimStart (trimStart text).reverse).reverse

theorem trimStart_eq_self {text : List Char} (solid : ∀ c ∈ text, isBlank c = false) :
    trimStart text = text := by
  cases text with
  | nil => rfl
  | cons c rest => exact List.dropWhile_cons_of_neg (by simp [solid c])

theorem trimStart_append {before : List Char} (blank : ∀ c ∈ before, isBlank c = true)
    (rest : List Char) : trimStart (before ++ rest) = trimStart rest :=
  List.dropWhile_append_of_pos blank

/-- Trimming takes off the white space around a text that has none itself. -/
theorem trim_append {before text behind : List Char} (front : ∀ c ∈ before, isBlank c = true)
    (solid : ∀ c ∈ text, isBlank c = false) (back : ∀ c ∈ behind, isBlank c = true) :
    trim (before ++ text ++ behind) = text := by
  rw [trim, List.append_assoc, trimStart_append front]
  cases text with
  | nil =>
      have nothing : trimStart behind = [] := by simpa [trimStart] using trimStart_append back []
      rw [List.nil_append, nothing]
      rfl
  | cons c rest =>
      have kept : trimStart (c :: rest ++ behind) = c :: rest ++ behind :=
        List.dropWhile_cons_of_neg (by simp [solid c])
      rw [kept, List.reverse_append, trimStart_append fun c member => back c (List.mem_reverse.mp member),
        trimStart_eq_self fun c member => solid c (List.mem_reverse.mp member), List.reverse_reverse]

/-- Nothing but white space is taken off. -/
theorem exists_trim_append (text : List Char) : ∃ before behind, text = before ++ trim text ++ behind
    ∧ (∀ c ∈ before, isBlank c = true) ∧ ∀ c ∈ behind, isBlank c = true := by
  refine ⟨text.takeWhile isBlank, ((trimStart text).reverse.takeWhile isBlank).reverse, ?_,
    fun c member => List.all_eq_true.mp List.all_takeWhile c member, fun c member => ?_⟩
  · have front : text.takeWhile isBlank ++ trimStart text = text := List.takeWhile_append_dropWhile
    have back : trim text ++ ((trimStart text).reverse.takeWhile isBlank).reverse = trimStart text := by
      rw [trim, ← List.reverse_append]
      exact List.reverse_eq_iff.mpr List.takeWhile_append_dropWhile
    rw [List.append_assoc, back, front]
  · exact List.all_eq_true.mp List.all_takeWhile c (List.mem_reverse.mp member)

end DspFirmware.Text
