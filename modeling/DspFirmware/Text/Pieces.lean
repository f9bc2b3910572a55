/-!
Texts cut into pieces at every occurrence of a mark, and texts read backwards up to their last mark.

There is one piece more than there are marks, and no piece holds a mark.
-/

namespace DspFirmware.Text

/-- The pieces between the marks of a text, empty ones included. -/
def pieces (mark : Char) : List Char → List (List Char)
  | [] => [[]]
  | c :: rest =>
      if c = mark then [] :: pieces mark rest
      else
        match pieces mark rest with
        | [] => [[c]]
        | first :: others => (c :: first) :: others

theorem pieces_ne_nil (mark : Char) (text : List Char) : pieces mark text ≠ [] := by
  cases text with
  | nil => simp [pieces]
  | cons c rest =>
      rw [pieces]
      split
      · simp
      · split <;> simp

/-- Nothing of a text is lost: its pieces with marks between them are the text. -/
theorem intercalate_pieces (mark : Char) (text : List Char) :
    [mark].intercalate (pieces mark text) = text := by
  induction text with
  | nil => rfl
  | cons c rest ih =>
      have nonempty : pieces mark rest ≠ [] := pieces_ne_nil mark rest
      rw [pieces]
      cases cut : pieces mark rest with
      | nil => exact absurd cut nonempty
      | cons first others =>
          rw [cut] at ih
          by_cases same : c = mark
          · rw [if_pos same, same]
            simpa [List.intercalate, List.intersperse] using ih
          · rw [if_neg same]
            cases others <;> simpa [List.intercalate, List.intersperse] using ih

/-- No piece holds a mark. -/
theorem notMem_pieces {mark : Char} {text piece : List Char} (h : piece ∈ pieces mark text) :
    mark ∉ piece := by
  induction text generalizing piece with
  | nil =>
      rw [List.mem_singleton.mp h]
      exact List.not_mem_nil
  | cons c rest ih =>
      rw [pieces] at h
      split at h
      · rcases List.mem_cons.mp h with rfl | later
        · exact List.not_mem_nil
        · exact ih later
      · rename_i other
        split at h
        · rw [List.mem_singleton.mp h, List.mem_singleton]
          exact Ne.symm other
        · rename_i first others cut
          rw [cut] at ih
          rcases List.mem_cons.mp h with rfl | later
          · rw [List.mem_cons, not_or]
            exact ⟨Ne.symm other, ih List.mem_cons_self⟩
          · exact ih (List.mem_cons_of_mem _ later)

/-- Pieces around a mark are the pieces in front of it and those behind it. -/
theorem pieces_append_mark (mark : Char) (front behind : List Char) :
    pieces mark (front ++ mark :: behind) = pieces mark front ++ pieces mark behind := by
  induction front with
  | nil => simp [pieces]
  | cons c rest ih =>
      rw [List.cons_append, pieces, pieces, ih]
      split
      · rfl
      · cases cut : pieces mark rest with
        | nil => exact absurd cut (pieces_ne_nil mark rest)
        | cons first others => rfl

section LastMark

variable {mark : Char} {text behind : List Char}

theorem forall_reverse_bne (unmarked : mark ∉ text) : ∀ c ∈ text.reverse, (c != mark) = true := by
  intro c member
  rw [bne_iff_ne]
  rintro rfl
  exact unmarked (List.mem_reverse.mp member)

theorem exists_eq_append_last (member : mark ∈ text) :
    ∃ front behind, text = front ++ mark :: behind ∧ mark ∉ behind := by
  obtain ⟨last, first, split, unmarked⟩ := List.eq_append_cons_of_mem (List.mem_reverse.mpr member)
  exact ⟨first.reverse, last.reverse, by simpa using congrArg List.reverse split,
    mt List.mem_reverse.mp unmarked⟩

/-- Read backwards, a text begins with what stands behind its last mark. -/
theorem takeWhile_reverse_append (last : mark ∉ behind) (front : List Char) :
    (front ++ mark :: behind).reverse.takeWhile (· != mark) = behind.reverse := by
  rw [List.reverse_append, List.reverse_cons, List.append_assoc,
    List.takeWhile_append_of_pos (forall_reverse_bne last)]
  simp

theorem dropWhile_reverse_append (last : mark ∉ behind) (front : List Char) :
    (front ++ mark :: behind).reverse.dropWhile (· != mark) = mark :: front.reverse := by
  rw [List.reverse_append, List.reverse_cons, List.append_assoc,
    List.dropWhile_append_of_pos (forall_reverse_bne last)]
  simp

theorem dropWhile_reverse_of_notMem (unmarked : mark ∉ text) :
    text.reverse.dropWhile (· != mark) = [] := by
  have whole : (text.reverse ++ []).dropWhile (· != mark) = [] :=
    List.dropWhile_append_of_pos (forall_reverse_bne unmarked)
  simpa using whole

end LastMark

end DspFirmware.Text
