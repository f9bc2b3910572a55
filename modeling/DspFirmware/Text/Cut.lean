/-!
Parts of texts between two places that are counted in bytes of UTF-8.

Not every such place lies between two characters. A text has no part that begins or ends inside of a
character.
-/

namespace DspFirmware.Text

def utf8Length : List Char → Nat
  | [] => 0
  | c :: rest => c.utf8Size + utf8Length rest

/-- A text without its first bytes, if they are whole characters of it. -/
def dropBytes? : (count : Nat) → List Char → Option (List Char)
  | 0, text => some text
  | _ + 1, [] => none
  | count + 1, c :: rest =>
      if c.utf8Size ≤ count + 1 then dropBytes? (count + 1 - c.utf8Size) rest else none

/-- The first bytes of a text, if they are whole characters of it. -/
def takeBytes? : (count : Nat) → List Char → Option (List Char)
  | 0, _ => some []
  | _ + 1, [] => none
  | count + 1, c :: rest =>
      if c.utf8Size ≤ count + 1 then (c :: ·) <$> takeBytes? (count + 1 - c.utf8Size) rest
      else none

/-- The part of a text between two places. -/
def cut? (text : List Char) (first last : Nat) : Option (List Char) := do
  takeBytes? (last - first) (← dropBytes? first text)

theorem utf8Length_append (first second : List Char) :
    utf8Length (first ++ second) = utf8Length first + utf8Length second := by
  induction first with
  | nil => simp [utf8Length]
  | cons c rest ih => simp only [List.cons_append, utf8Length, ih, Nat.add_assoc]

theorem dropBytes?_append (first second : List Char) :
    dropBytes? (utf8Length first) (first ++ second) = some second := by
  induction first with
  | nil => cases second <;> rfl
  | cons c rest ih =>
      obtain ⟨size, same⟩ : ∃ size, c.utf8Size = size + 1 :=
        ⟨c.utf8Size - 1, (Nat.sub_add_cancel c.utf8Size_pos).symm⟩
      rw [utf8Length, same, Nat.add_right_comm, List.cons_append, dropBytes?, same,
        if_pos (by omega), show size + utf8Length rest + 1 - (size + 1) = utf8Length rest by omega]
      exact ih

theorem takeBytes?_append (first second : List Char) :
    takeBytes? (utf8Length first) (first ++ second) = some first := by
  induction first with
  | nil => cases second <;> rfl
  | cons c rest ih =>
      obtain ⟨size, same⟩ : ∃ size, c.utf8Size = size + 1 :=
        ⟨c.utf8Size - 1, (Nat.sub_add_cancel c.utf8Size_pos).symm⟩
      rw [utf8Length, same, Nat.add_right_comm, List.cons_append, takeBytes?, same,
        if_pos (by omega), show size + utf8Length rest + 1 - (size + 1) = utf8Length rest by omega,
        ih]
      rfl

/-- A cut between characters is the text between them. -/
theorem cut?_append (before text behind : List Char) :
    cut? (before ++ text ++ behind) (utf8Length before) (utf8Length before + utf8Length text)
      = some text := by
  simp [cut?, List.append_assoc, dropBytes?_append, takeBytes?_append]

end DspFirmware.Text
