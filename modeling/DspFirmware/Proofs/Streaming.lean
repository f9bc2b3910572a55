import DspFirmware.Proofs.Locality

/-!
Reading the beginning of a byte string. A streaming operation cannot tell the beginning from the whole
string until it needs a byte that only the whole string has: up to then answers and faults are the same,
and after that the fault names an access that does not lie inside the beginning. What is put together
from bytes and numbers alone is streaming, and local besides.
-/

namespace DspFirmware

/-- The second reader stands at the same place of a byte string that begins with that of the first. -/
def Reader.ExtendedBy (r s : Reader) : Prop := r.data <+: s.data ∧ s.pos = r.pos

namespace Leb128

/-- More bytes matter only to a scan that has run out of them. -/
def Scan.Settled : Scan α → Prop
  | .truncated => False
  | _ => True

theorem unsigned_append {value length : Nat} {bytes : Bytes}
    (settled : (unsigned value length bytes).Settled) (more : Bytes) :
    unsigned value length (bytes ++ more) = unsigned value length bytes := by
  induction bytes generalizing value length with
  | nil => exact settled.elim
  | cons byte rest ih =>
      rw [unsigned_cons] at settled ⊢
      rw [List.cons_append, unsigned_cons]
      split
      · rfl
      · split
        · rfl
        · rw [if_neg ‹_›, if_neg ‹_›] at settled
          exact ih settled

theorem signed_append {sum length : Nat} {bytes : Bytes}
    (settled : (signed sum length bytes).Settled) (more : Bytes) :
    signed sum length (bytes ++ more) = signed sum length bytes := by
  induction bytes generalizing sum length with
  | nil => exact settled.elim
  | cons byte rest ih =>
      rw [signed_cons] at settled ⊢
      rw [List.cons_append, signed_cons]
      split
      · rfl
      · split
        · rfl
        · rw [if_neg ‹_›, if_neg ‹_›] at settled
          exact ih settled

end Leb128

namespace Reader

theorem ExtendedBy.rest {r s : Reader} (h : r.ExtendedBy s) : r.rest <+: s.rest := by
  obtain ⟨⟨more, hMore⟩, same⟩ := h
  refine ⟨more, ?_⟩
  rw [r.rest_eq, s.rest_eq, same, ← hMore, List.drop_append_of_le_length r.pos_le]

/-- What the first reader has in front of it, the second has too. -/
theorem ExtendedBy.take {r s : Reader} (h : r.ExtendedBy s) {count : Nat}
    (enough : count ≤ r.rest.length) :
    count ≤ s.rest.length ∧ s.rest.take count = r.rest.take count := by
  obtain ⟨more, hRest⟩ := h.rest
  rw [← hRest, List.take_append_of_le_length enough, List.length_append]
  exact ⟨Nat.le_add_right_of_le enough, rfl⟩

theorem ExtendedBy.advance {r s : Reader} (h : r.ExtendedBy s) {count : Nat}
    (enough : count ≤ r.rest.length) (more : count ≤ s.rest.length) :
    (r.advance count enough).ExtendedBy (s.advance count more) :=
  ⟨h.1, congrArg (· + count) h.2⟩

/-- An access of more than what lies ahead goes beyond the bytes. -/
theorem length_lt_pos_add {r : Reader} {count : Nat} (short : ¬count ≤ r.rest.length) :
    r.data.length < r.pos + count := by
  rw [length_rest] at short
  omega

end Reader

namespace Read

open Reader

/-- An outcome on the beginning of a byte string, next to the outcome on the whole: the same one, or the
fault of an access that goes beyond the beginning. -/
inductive Foretells (data : Bytes) :
    EStateM.Result Fault Reader α → EStateM.Result Fault Reader α → Prop where
  | ok {answer : α} {r s : Reader} (here : r.data = data) (longer : r.ExtendedBy s) :
      Foretells data (.ok answer r) (.ok answer s)
  | error {cause : Fault} {r s : Reader} : Foretells data (.error cause r) (.error cause s)
  | short {offset count : Nat} {r : Reader} {outcome : EStateM.Result Fault Reader α}
      (beyond : data.length < offset + count) :
      Foretells data (.error (.outOfBounds offset count data.length) r) outcome

/-- The beginning of a byte string is read as the whole is, until it ends. -/
def Streaming (operation : Read α) : Prop :=
  ∀ ⦃r s⦄, r.ExtendedBy s → Foretells r.data (operation r) (operation s)

theorem streaming_pure (value : α) : Streaming (pure value : Read α) := fun _ _ h => .ok rfl h

theorem streaming_throw (cause : Fault) : Streaming (throw cause : Read α) := fun _ _ _ => .error

/-- A refusal ends a sequence, whatever would have followed. -/
theorem streaming_throw_bind (cause : Fault) (next : α → Read β) :
    Streaming ((throw cause : Read α) >>= next) := fun _ _ _ => .error

theorem Streaming.bind {operation : Read α} {next : α → Read β} (first : Streaming operation)
    (second : ∀ value, Streaming (next value)) : Streaming (operation >>= next) := by
  intro r s h
  have outcome := first h
  change Foretells _ (EStateM.bind operation next r) (EStateM.bind operation next s)
  rw [EStateM.bind, EStateM.bind]
  generalize operation r = left at outcome ⊢
  generalize operation s = right at outcome ⊢
  cases outcome with
  | ok here longer => exact here ▸ second _ longer
  | error => exact .error
  | short beyond => exact .short beyond

theorem Streaming.map {operation : Read α} {f : α → β} (h : Streaming operation) :
    Streaming (f <$> operation) := by
  rw [← bind_pure_comp]
  exact h.bind fun _ => streaming_pure _

theorem streaming_bytes (count : Nat) : Streaming (bytes count) := by
  intro r s h
  by_cases enough : count ≤ r.rest.length
  · obtain ⟨more, same⟩ := h.take enough
    rw [bytes_of_le enough, bytes_of_le more, same]
    exact .ok rfl (h.advance enough more)
  · rw [bytes_of_lt (Nat.lt_of_not_le enough)]
    exact .short (length_lt_pos_add enough)

theorem streaming_block (count : Nat) : Streaming (Read.block count) := by
  intro r s h
  rw [Read.block, Read.block]
  by_cases enough : count ≤ r.rest.length
  · obtain ⟨more, same⟩ := h.take enough
    rw [dif_pos (Bytes.holds_iff.mpr enough), dif_pos (Bytes.holds_iff.mpr more)]
    simp only [same]
    exact .ok rfl (h.advance enough more)
  · rw [dif_neg (fun held => enough (Bytes.holds_iff.mp held))]
    exact .short (length_lt_pos_add enough)

theorem streaming_skip (count : Nat) : Streaming (skip count) :=
  (streaming_bytes count).bind fun _ => streaming_pure _

/-- The place of a seek is one of the whole string if it is one of the beginning. -/
theorem streaming_seek (pos : Nat) : Streaming (seek pos) := by
  intro r s h
  by_cases inside : pos ≤ r.data.length
  · have further : pos ≤ s.data.length := inside.trans h.1.length_le
    rw [seek_of_le inside, seek_of_le further]
    exact .ok rfl ⟨h.1, rfl⟩
  · rw [seek_of_lt (Nat.lt_of_not_le inside)]
    exact .short (by omega)

/-- A number is read as soon as its last byte is there, or the first byte that takes it too far. -/
theorem streaming_scanned {scan : Bytes → Leb128.Scan α}
    {within : ∀ bytes, (scan bytes).Within bytes.length}
    (settles : ∀ bytes more, (scan bytes).Settled → scan (bytes ++ more) = scan bytes) :
    Streaming (scanned scan within) := by
  intro r s h
  obtain ⟨more, hRest⟩ := h.rest
  cases found : scan r.rest with
  | value value length =>
      have later : scan s.rest = .value value length := by
        rw [← hRest, settles _ _ (found ▸ trivial), found]
      obtain ⟨enough, left⟩ := scanned_of_value found
      obtain ⟨further, right⟩ := scanned_of_value later
      rw [left, right]
      exact .ok rfl (h.advance enough further)
  | overflow length =>
      have later : scan s.rest = .overflow length := by
        rw [← hRest, settles _ _ (found ▸ trivial), found]
      obtain ⟨_, left⟩ := scanned_of_overflow found
      obtain ⟨_, right⟩ := scanned_of_overflow later
      rw [left, right, h.2]
      exact .error
  | truncated =>
      rw [scanned_of_truncated found]
      exact .short (Nat.lt_succ_self _)

theorem streaming_uleb128 : Streaming uleb128 := by
  apply Streaming.map
  exact streaming_scanned fun _ more settled => Leb128.unsigned_append settled more

theorem streaming_sleb128 : Streaming sleb128 :=
  streaming_scanned fun _ more settled => Leb128.signed_append settled more

/-- Operations that read bytes and numbers one behind the other, and may refuse what they find. -/
inductive Straight : {α : Type} → Read α → Prop where
  | pure {α : Type} (value : α) : Straight (pure value : Read α)
  | throw {α : Type} (cause : Fault) : Straight (throw cause : Read α)
  | bytes (count : Nat) : Straight (bytes count)
  | uleb128 : Straight uleb128
  | sleb128 : Straight sleb128
  | bind {α β : Type} {operation : Read α} {next : α → Read β} (first : Straight operation)
      (second : ∀ value, Straight (next value)) : Straight (operation >>= next)

namespace Straight

theorem map {α β : Type} {operation : Read α} {f : α → β} (h : Straight operation) :
    Straight (f <$> operation) := by
  rw [← bind_pure_comp]
  exact h.bind fun _ => .pure _

theorem word (width : Nat) : Straight (word width) := (Straight.bytes width).bind fun _ => .pure _

theorem uint8 : Straight uint8 := (word 1).bind fun _ => .pure _

theorem uint16 : Straight uint16 := (word 2).bind fun _ => .pure _

theorem uint32 : Straight uint32 := (word 4).bind fun _ => .pure _

theorem isLocal {α : Type} {operation : Read α} (h : Straight operation) : Local operation := by
  induction h with
  | pure value => exact local_pure value
  | throw cause => exact local_throw cause
  | bytes count => exact local_bytes count
  | uleb128 => exact local_uleb128
  | sleb128 => exact local_sleb128
  | bind first second left right => exact left.bind right

theorem isStreaming {α : Type} {operation : Read α} (h : Straight operation) :
    Streaming operation := by
  induction h with
  | pure value => exact streaming_pure value
  | throw cause => exact streaming_throw cause
  | bytes count => exact streaming_bytes count
  | uleb128 => exact streaming_uleb128
  | sleb128 => exact streaming_sleb128
  | bind first second left right => exact left.bind right

end Straight

theorem streaming_uint8 : Streaming uint8 := Straight.uint8.isStreaming

theorem streaming_uint16 : Streaming uint16 := Straight.uint16.isStreaming

theorem streaming_uint32 : Streaming uint32 := Straight.uint32.isStreaming

theorem Streaming.mapM {f : α → Read β} (h : ∀ item, Streaming (f item)) (items : List α) :
    Streaming (items.mapM f) := by
  induction items with
  | nil => exact streaming_pure []
  | cons item items ih =>
      rw [List.mapM_cons]
      exact (h item).bind fun _ => ih.bind fun _ => streaming_pure _

/-- An answer on the beginning is the answer on the whole, with the reader at the same place. -/
theorem Streaming.ok {operation : Read α} (h : Streaming operation) {r s t : Reader} {answer : α}
    (longer : r.ExtendedBy s) (success : operation r = .ok answer t) :
    ∃ u, operation s = .ok answer u ∧ t.ExtendedBy u := by
  have outcome := h longer
  rw [success] at outcome
  generalize operation s = whole at outcome ⊢
  cases outcome with
  | @ok _ _ u _ further => exact ⟨u, rfl, further⟩

/-- The answer of an operation, or nothing at the end. -/
def untilEnd (operation : Read α) : Read (Option α) := do
  if (← get).atEnd then return none else some <$> operation

theorem untilEnd_of_atEnd (operation : Read α) {r : Reader} (finished : r.atEnd = true) :
    untilEnd operation r = .ok none r := by
  change (if r.atEnd then (pure none : Read (Option α)) else some <$> operation) r = _
  rw [if_pos finished]
  rfl

theorem untilEnd_of_ahead (operation : Read α) {r : Reader} (ahead : ¬r.atEnd = true) :
    untilEnd operation r = (some <$> operation) r := by
  change (if r.atEnd then (pure none : Read (Option α)) else some <$> operation) r = _
  rw [if_neg ahead]

/-- Repeated up to the end, a streaming operation delivers first on a byte string what it delivers on
its beginning. It goes on with what lies behind the beginning. -/
theorem Streaming.gather {operation : Read α} (h : Streaming operation)
    {progress : Progress (untilEnd operation)} {r s : Reader} (longer : r.ExtendedBy s)
    (clean : (r.gather (untilEnd operation) progress).fault = none) :
    ∃ t : Reader, t.data = s.data ∧ t.pos = r.data.length ∧
      s.gather (untilEnd operation) progress
        = (t.gather (untilEnd operation) progress).prepend
            (r.gather (untilEnd operation) progress).items := by
  -- The beginning gets shorter with every answer; the whole is read along with it.
  induction length : r.rest.length using Nat.strongRecOn generalizing r s with
  | _ size ih =>
      by_cases finished : r.atEnd = true
      · refine ⟨s, rfl, longer.2.trans ?_, ?_⟩
        · have spent : r.rest.length = 0 := List.length_eq_zero_iff.mpr (List.isEmpty_iff.mp finished)
          rw [length_rest] at spent
          exact Nat.le_antisymm r.pos_le (Nat.le_of_sub_eq_zero spent)
        · rw [gather_of_none (untilEnd_of_atEnd operation finished)]
          rfl
      · have ahead : ¬s.atEnd = true := fun ended =>
          finished (List.isEmpty_iff.mpr (List.prefix_nil.mp (List.isEmpty_iff.mp ended ▸ longer.rest)))
        cases left : untilEnd operation r with
        | error cause _ =>
            rw [gather_of_error left] at clean
            cases clean
        | ok item behind =>
            obtain ⟨value, read, rfl⟩ :=
              map_eq_ok.mp ((untilEnd_of_ahead operation finished).symm.trans left)
            obtain ⟨u, same, further⟩ := h.map.ok longer (map_eq_ok.mpr ⟨value, read, rfl⟩)
            have right := (untilEnd_of_ahead operation ahead).trans same
            have moved := progress left
            rw [gather_of_some left] at clean ⊢
            obtain ⟨t, data, pos, rest⟩ :=
              ih _ (length ▸ length_rest_lt moved.1 moved.2) further clean rfl
            refine ⟨t, data.trans (progress right).1, moved.1 ▸ pos, ?_⟩
            rw [gather_of_some right, rest]
            rfl

/-- Run on the beginning of a byte string, a streaming operation comes to what it comes to on the whole,
or finds an access that goes beyond the beginning. -/
theorem Streaming.runOn {operation : Read α} (h : Streaming operation) {part whole : Bytes}
    (beginning : part <+: whole) :
    runOn operation part = runOn operation whole ∨
      ∃ offset count, part.length < offset + count ∧
        runOn operation part = .error (.outOfBounds offset count part.length) := by
  have outcome := h (show (ofBytes part).ExtendedBy (ofBytes whole) from ⟨beginning, rfl⟩)
  rw [Read.runOn, Read.runOn]
  generalize operation (ofBytes part) = left at outcome ⊢
  generalize operation (ofBytes whole) = right at outcome ⊢
  cases outcome with
  | ok here longer => exact Or.inl rfl
  | error => exact Or.inl rfl
  | short beyond => exact Or.inr ⟨_, _, beyond, rfl⟩

end Read

end DspFirmware
