import DspFirmware.Value
import Mathlib.Data.List.Induction

/-!
What a writer holds after any sequence of seeks and writes: at each place the byte that the last write
over that place has put there, and zeros between. The buffer reaches as far as any write did, also one of
no bytes.
-/

namespace DspFirmware

namespace Value

/-- The runs in which a value is written: a text apart from the zero behind it, and the bytes of a LEB128
number one by one. -/
def pieces : Value → List Bytes
  | text name => [Text.utf8 name, [0]]
  | unsigned value => (Bytes.uleb128 value).map ([·])
  | signed value => (Bytes.sleb128 value).map ([·])
  | value => [value.encode]

theorem flatten_pieces (value : Value) : value.pieces.flatten = value.encode := by
  cases value <;> simp [pieces, encode, Text.terminated, ← List.flatMap_def]

theorem pieces_ne_nil (value : Value) : value.pieces ≠ [] := by
  cases value with
  | unsigned value =>
      rw [pieces, Bytes.uleb128, Leb128.encodeUnsigned]
      split <;> simp
  | signed value =>
      rw [pieces, Bytes.sleb128, Leb128.encodeSigned]
      split <;> simp
  | _ => simp [pieces]

end Value

namespace Writer

inductive Action where
  | seek (pos : Nat)
  | put (value : Value)
  deriving DecidableEq, Repr

def act (w : Writer) : Action → Writer
  | .seek pos => w.seek pos
  | .put value => w.write value.encode

def perform (w : Writer) (actions : List Action) : Writer := actions.foldl act w

/-- A run of bytes that is written, and where. -/
structure Call where
  pos : Nat
  run : Bytes
  deriving DecidableEq, Repr

namespace Call

def stop (call : Call) : Nat := call.pos + call.run.length

def Covers (call : Call) (i : Nat) : Prop := call.pos ≤ i ∧ i < call.stop

instance (call : Call) (i : Nat) : Decidable (call.Covers i) := inferInstanceAs (Decidable (_ ∧ _))

/-- Runs written one behind the other. -/
def chain : (pos : Nat) → List Bytes → List Call
  | _, [] => []
  | pos, run :: rest => ⟨pos, run⟩ :: chain (pos + run.length) rest

/-- The largest end of a call. -/
def extent (calls : List Call) : Nat := calls.foldl (fun reached call => max reached call.stop) 0

end Call

/-- What is written from a position on, in the order of time. -/
def calls : (pos : Nat) → List Action → List Call
  | _, [] => []
  | _, .seek pos :: rest => calls pos rest
  | pos, .put value :: rest => Call.chain pos value.pieces ++ calls (pos + value.encode.length) rest

/-- A write puts its bytes where it is. -/
theorem getElem?_write_of_covers {w : Writer} {run : Bytes} {i : Nat}
    (covers : (Call.mk w.pos run).Covers i) :
    (w.write run).buffer[i]? = run[i - w.pos]? := by
  obtain ⟨low, high⟩ : w.pos ≤ i ∧ i < w.pos + run.length := covers
  have front := w.length_front
  rw [write, List.getElem?_append_left, List.getElem?_append_right (by omega), front]
  rw [List.length_append, front]
  exact high

/-- Elsewhere a write leaves what there was, and zeros where there was nothing. -/
theorem getElem?_write_of_not_covers {w : Writer} {run : Bytes} {i : Nat}
    (inside : i < (w.write run).buffer.length) (outside : ¬(Call.mk w.pos run).Covers i) :
    (w.write run).buffer[i]? = some (w.buffer[i]?.getD 0) := by
  have front := w.length_front
  by_cases before : i < w.pos
  case pos =>
    rw [write, List.append_assoc, List.getElem?_append_left (by omega), List.getElem?_append,
      List.length_take, List.getElem?_take]
    by_cases held : i < w.buffer.length
    · rw [if_pos (by omega), if_pos before, List.getElem?_eq_getElem held]
      rfl
    · rw [if_neg (by omega), List.getElem?_replicate, if_pos (by omega),
        List.getElem?_eq_none (by omega)]
      rfl
  case neg =>
    have behind : w.pos + run.length ≤ i := Nat.le_of_not_lt fun high =>
      outside ⟨Nat.le_of_not_lt before, high⟩
    have held : i < w.buffer.length := by
      rw [length_buffer_write] at inside
      omega
    have length : (w.buffer.take w.pos ++ List.replicate (w.pos - w.buffer.length) 0 ++ run).length
        = w.pos + run.length := by
      rw [List.length_append, front]
    rw [write, List.getElem?_append_right (by omega), length, List.getElem?_drop,
      Nat.add_sub_of_le behind, List.getElem?_eq_getElem held]
    rfl

/-- A buffer is what some calls make of an empty one. -/
structure Reflects (buffer : Bytes) (done : List Call) : Prop where
  length : buffer.length = Call.extent done
  covered : ∀ before call behind, done = before ++ call :: behind → ∀ i, call.Covers i →
    (∀ later ∈ behind, ¬later.Covers i) → buffer[i]? = call.run[i - call.pos]?
  gap : ∀ i < buffer.length, (∀ call ∈ done, ¬call.Covers i) → buffer[i]? = some 0

theorem Call.extent_concat (calls : List Call) (call : Call) :
    Call.extent (calls ++ [call]) = max (Call.extent calls) call.stop := by
  simp [extent]

theorem Call.stop_le_extent {calls : List Call} {call : Call} (member : call ∈ calls) :
    call.stop ≤ Call.extent calls := by
  induction calls using List.reverseRecOn with
  | nil => cases member
  | append_singleton front final ih =>
      rw [extent_concat]
      rcases List.mem_append.mp member with old | new
      · exact Nat.le_trans (ih old) (Nat.le_max_left _ _)
      · rw [List.mem_singleton.mp new]
        exact Nat.le_max_right _ _

theorem reflects_nil : Reflects [] [] where
  length := rfl
  covered := by simp
  gap := by simp

/-- One call more. -/
theorem Reflects.write {w : Writer} {done : List Call} (h : Reflects w.buffer done) (run : Bytes) :
    Reflects (w.write run).buffer (done ++ [⟨w.pos, run⟩]) where
  length := by
    rw [length_buffer_write, Call.extent_concat, h.length]
    rfl
  covered := by
    intro before call behind split i covers last
    rcases List.eq_nil_or_concat behind with rfl | ⟨others, final, rfl⟩
    · obtain ⟨rfl, same⟩ := List.append_inj' split rfl
      cases same
      exact getElem?_write_of_covers covers
    · rw [List.concat_eq_append, ← List.cons_append, ← List.append_assoc] at split
      obtain ⟨rfl, same⟩ := List.append_inj' split rfl
      cases same
      have reached : call.stop ≤ Call.extent (before ++ call :: others) :=
        Call.stop_le_extent (by simp)
      have held : i < w.buffer.length := by
        rw [h.length]
        exact Nat.lt_of_lt_of_le covers.2 reached
      have inside : i < (w.write run).buffer.length := by
        rw [length_buffer_write]
        omega
      have old := h.covered before call others rfl i covers fun later member => last later (by simp [member])
      rw [getElem?_write_of_not_covers inside (last _ (by simp)), ← old, List.getElem?_eq_getElem held]
      rfl
  gap := by
    intro i inside free
    rw [getElem?_write_of_not_covers inside (free _ (by simp))]
    by_cases held : i < w.buffer.length
    · rw [h.gap i held fun call member => free call (by simp [member])]
      rfl
    · rw [List.getElem?_eq_none (Nat.le_of_not_lt held)]
      rfl

/-- Runs that are written one behind the other come to one run. -/
theorem write_flatten (w : Writer) {runs : List Bytes} (some_run : runs ≠ []) :
    w.write runs.flatten = runs.foldl write w := by
  induction runs generalizing w with
  | nil => exact absurd rfl some_run
  | cons run rest ih =>
      rcases eq_or_ne rest [] with rfl | more
      · simp
      · rw [List.flatten_cons, write_append, ih _ more, List.foldl_cons]

theorem Reflects.chain {w : Writer} {done : List Call} (h : Reflects w.buffer done) (runs : List Bytes) :
    Reflects (runs.foldl Writer.write w).buffer (done ++ Call.chain w.pos runs) := by
  induction runs generalizing w done with
  | nil => rwa [Call.chain, List.append_nil]
  | cons run rest ih =>
      rw [List.foldl_cons, Call.chain, List.append_cons]
      exact ih (h.write run)

theorem Reflects.put {w : Writer} {done : List Call} (h : Reflects w.buffer done) (value : Value) :
    Reflects (w.write value.encode).buffer (done ++ Call.chain w.pos value.pieces) := by
  rw [← value.flatten_pieces, write_flatten w value.pieces_ne_nil]
  exact h.chain value.pieces

/-- Whatever a writer is told to do next, it holds what the writes up to then make. -/
theorem Reflects.perform {w : Writer} {done : List Call} (h : Reflects w.buffer done)
    (actions : List Action) : Reflects (w.perform actions).buffer (done ++ calls w.pos actions) := by
  induction actions generalizing w done with
  | nil => rwa [calls, List.append_nil]
  | cons action rest ih =>
      cases action with
      | seek pos => exact ih (w := w.seek pos) h
      | put value =>
          rw [calls, ← List.append_assoc]
          exact ih (h.put value)

theorem pos_perform_puts (w : Writer) (values : List Value) :
    (w.perform (values.map .put)).pos = w.pos + (values.flatMap Value.encode).length := by
  induction values generalizing w with
  | nil => rfl
  | cons value rest ih =>
      rw [List.map_cons, List.flatMap_cons, List.length_append, ← Nat.add_assoc]
      exact ih (w.write value.encode)

theorem perform_append (w : Writer) (first second : List Action) :
    w.perform (first ++ second) = (w.perform first).perform second := List.foldl_append

/-- After any seeks and writes, the buffer is as long as the furthest write reached. Each byte is the one
that the last write over it put there, and zero where there was none. The position is behind what was
written since the last seek. -/
theorem perform_last_writes (actions : List Action) :
    let w := empty.perform actions
    let done := calls 0 actions
    w.buffer.length = Call.extent done
    ∧ (∀ before call behind, done = before ++ call :: behind → ∀ i, call.Covers i →
        (∀ later ∈ behind, ¬later.Covers i) → w.buffer[i]? = call.run[i - call.pos]?)
    ∧ (∀ i < w.buffer.length, (∀ call ∈ done, ¬call.Covers i) → w.buffer[i]? = some 0)
    ∧ (∀ values : List Value, actions = values.map .put → w.pos = (values.flatMap Value.encode).length)
    ∧ (∀ before pos (values : List Value), actions = before ++ .seek pos :: values.map .put →
        w.pos = pos + (values.flatMap Value.encode).length) := by
  intro w done
  have reflects : Reflects w.buffer done := reflects_nil.perform (w := empty) actions
  refine ⟨reflects.length, reflects.covered, reflects.gap, ?untouched, ?sought⟩
  case untouched =>
    rintro values rfl
    exact (pos_perform_puts empty values).trans (Nat.zero_add _)
  case sought =>
    rintro before pos values rfl
    rw [show w = _ from perform_append empty before _]
    exact pos_perform_puts ((empty.perform before).seek pos) values

/-- Over a gap, back into it with a text, behind that a number of two bytes, and far off nothing. -/
theorem perform_last_writes_overlap :
    let actions : List Action := [.seek 2, .put (.uint32 0x44332211), .seek 1, .put (.text "a"),
      .seek 4, .put (.unsigned 300), .seek 9, .put (.bytes [])]
    let w := empty.perform actions
    let done : List Call := [⟨2, [0x11, 0x22, 0x33, 0x44]⟩, ⟨1, [0x61]⟩, ⟨2, [0]⟩, ⟨4, [0xac]⟩, ⟨5, [2]⟩,
      ⟨9, []⟩]
    calls 0 actions = done
    ∧ w.buffer = [0, 0x61, 0, 0x22, 0xac, 2, 0, 0, 0]
    ∧ w.buffer.length = Call.extent done
    ∧ w.buffer[3]? = some 0x22
    ∧ w.buffer[7]? = some 0
    ∧ w.pos = 9 := by
  intro actions w done
  have made : calls 0 actions = done := by decide +kernel
  have spec := perform_last_writes actions
  rw [made] at spec
  obtain ⟨length, covered, gap, -, sought⟩ := spec
  refine ⟨made, by decide +kernel, length, ?old, ?zero, ?pos⟩
  case old => exact covered [] ⟨2, [0x11, 0x22, 0x33, 0x44]⟩ done.tail rfl 3 (by decide) (by decide)
  case zero => exact gap 7 (length ▸ by decide) (by decide)
  case pos => exact sought (actions.take 6) 9 [.bytes []] rfl

end Writer

end DspFirmware
