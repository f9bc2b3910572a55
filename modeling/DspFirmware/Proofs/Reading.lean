import DspFirmware.Reader.Gather
import DspFirmware.Writer
import DspFirmware.Proofs.Text.Names

/-!
Reading back what was written. An operation yields a value from a run of bytes when it reads
exactly that run, wherever it stands and whatever follows it. Sequences of such operations yield
from the runs one behind the other, so that a format is read back by putting its parts together.
-/

namespace DspFirmware

namespace Reader

/-- The reader that has passed some bytes and has others in front of it. -/
def between (passed ahead : Bytes) : Reader where
  data := passed ++ ahead
  pos := passed.length
  rest := ahead
  rest_eq := by simp
  pos_le := by simp

@[simp] theorem data_between (passed ahead : Bytes) : (between passed ahead).data = passed ++ ahead :=
  rfl

@[simp] theorem pos_between (passed ahead : Bytes) : (between passed ahead).pos = passed.length :=
  rfl

@[simp] theorem rest_between (passed ahead : Bytes) : (between passed ahead).rest = ahead :=
  rfl

theorem ofBytes_eq_between (data : Bytes) : ofBytes data = between [] data := rfl

/-- A reader is known by its bytes and its position. -/
theorem ext_pos {r s : Reader} (data : r.data = s.data) (pos : r.pos = s.pos) : r = s :=
  Reader.ext data pos (by rw [r.rest_eq, s.rest_eq, data, pos])

theorem advance_between {passed run ahead : Bytes} {count : Nat}
    (enough : count ≤ (between passed (run ++ ahead)).rest.length) (h : count = run.length) :
    (between passed (run ++ ahead)).advance count enough = between (passed ++ run) ahead :=
  ext_pos (by simp [advance]) (by simp [advance, h])

end Reader

namespace Read

open Reader

theorem runOn_eq_ok_iff {operation : Read α} {data : Bytes} {answer : α} :
    runOn operation data = .ok answer ↔ ∃ s, operation (.ofBytes data) = .ok answer s := by
  rw [runOn]
  cases operation (.ofBytes data) with
  | ok other s => simp
  | error fault s => simp

section

variable {operation : Read α} {r s : Reader} {cause : Fault} {count pos : Nat}

theorem bind_of_ok {value : α} (first : operation r = .ok value s) (next : α → Read β) :
    (operation >>= next) r = next value s := by
  change EStateM.bind operation next r = _
  rw [EStateM.bind, first]

theorem bind_of_error (failed : operation r = .error cause s) (next : α → Read β) :
    (operation >>= next) r = .error cause s := by
  change EStateM.bind operation next r = _
  rw [EStateM.bind, failed]

theorem map_eq_error {f : α → β} (failed : operation r = .error cause s) :
    (f <$> operation) r = .error cause s := by
  change EStateM.map f operation r = _
  rw [EStateM.map, failed]

theorem bytes_of_le (enough : count ≤ r.rest.length) :
    bytes count r = .ok (r.rest.take count) (r.advance count enough) :=
  dif_pos (Bytes.holds_iff.mpr enough)

theorem bytes_of_lt (short : r.rest.length < count) :
    bytes count r = .error (r.outOfBounds r.pos count) r :=
  dif_neg fun held => Nat.not_le_of_lt short (Bytes.holds_iff.mp held)

theorem seek_of_le (inside : pos ≤ r.data.length) : seek pos r = .ok () (r.moveTo pos inside) :=
  dif_pos (Bytes.holds_iff.mpr inside)

theorem seek_of_lt (beyond : r.data.length < pos) : seek pos r = .error (r.outOfBounds pos 0) r :=
  dif_neg fun held => Nat.not_le_of_lt beyond (Bytes.holds_iff.mp held)

end

/-- The operation reads exactly the run and returns the value. -/
def Yields (operation : Read α) (run : Bytes) (value : α) : Prop :=
  ∀ passed ahead,
    operation (between passed (run ++ ahead)) = .ok value (between (passed ++ run) ahead)

theorem yields_pure (value : α) : Yields (pure value) [] value := by
  intro passed ahead
  rw [List.append_nil]
  rfl

/-- Behind the run, a sequence goes on with the value. -/
theorem Yields.bind_between {operation : Read α} {run : Bytes} {middle : α}
    (h : Yields operation run middle) (next : α → Read β) (passed ahead : Bytes) :
    (operation >>= next) (between passed (run ++ ahead))
      = next middle (between (passed ++ run) ahead) :=
  bind_of_ok (h passed ahead) next

theorem Yields.bind {operation : Read α} {next : α → Read β} {first second : Bytes}
    {middle : α} {value : β} (hFirst : Yields operation first middle)
    (hSecond : Yields (next middle) second value) :
    Yields (operation >>= next) (first ++ second) value := by
  intro passed ahead
  rw [List.append_assoc, hFirst.bind_between, hSecond, List.append_assoc]

/-- The end of a sequence: what comes behind the last operation reads nothing. -/
theorem Yields.bind_nil {operation : Read α} {next : α → Read β} {run : Bytes} {middle : α}
    {value : β} (hFirst : Yields operation run middle) (hSecond : Yields (next middle) [] value) :
    Yields (operation >>= next) run value := by
  rw [← List.append_nil run]
  exact hFirst.bind hSecond

theorem Yields.bind_pure {operation : Read α} {f : α → β} {run : Bytes} {value : α}
    (h : Yields operation run value) : Yields (operation >>= fun a => pure (f a)) run (f value) :=
  h.bind_nil (yields_pure (f value))

/-- A choice in front of a sequence, as the sequence has it behind either branch. -/
theorem Yields.ite_bind {first second : Read α} {next : α → Read β} {run : Bytes} {value : β}
    {c : Prop} [Decidable c] (h : Yields ((if c then first else second) >>= next) run value) :
    Yields (if c then first >>= next else second >>= next) run value := by
  split
  · rwa [if_pos ‹c›] at h
  · rwa [if_neg ‹¬c›] at h

/-- A traversal reads the items one behind the other, each as its own operation does. -/
theorem yields_mapM {operation : ι → Read α} {kind : α → ι} {encode : α → Bytes} {items : List α}
    (h : ∀ item ∈ items, Yields (operation (kind item)) (encode item) item) :
    Yields ((items.map kind).mapM operation) (items.flatMap encode) items := by
  induction items with
  | nil => exact yields_pure []
  | cons item items ih =>
      obtain ⟨first, others⟩ := List.forall_mem_cons.mp h
      rw [List.map_cons, List.mapM_cons, List.flatMap_cons]
      exact first.bind (ih others).bind_pure

theorem Yields.map {operation : Read α} {f : α → β} {run : Bytes} {value : α}
    (h : Yields operation run value) : Yields (f <$> operation) run (f value) :=
  fun passed ahead => map_eq_ok.mpr ⟨value, h passed ahead, rfl⟩

theorem Yields.runOn {operation : Read α} {run : Bytes} {value : α}
    (h : Yields operation run value) (ahead : Bytes) :
    Read.runOn operation (run ++ ahead) = .ok value := by
  rw [Read.runOn, ofBytes_eq_between, h [] ahead]

theorem yields_bytes {run : Bytes} {count : Nat} (h : run.length = count) :
    Yields (bytes count) run run := by
  intro passed ahead
  have enough : count ≤ (between passed (run ++ ahead)).rest.length := by simp [h]
  rw [bytes_of_le enough, advance_between _ h.symm]
  simp [← h]

theorem yields_block {count : Nat} (block : Bytes.Block count) :
    Yields (Read.block count) block.val block := by
  intro passed ahead
  have length := block.property
  have enough : count ≤ (between passed (block.val ++ ahead)).rest.length := by simp [length]
  rw [Read.block, dif_pos (Bytes.holds_iff.mpr enough), advance_between _ length.symm]
  congr 1
  apply Subtype.ext
  simp [← length]

theorem yields_skip {run : Bytes} {count : Nat} (h : run.length = count) :
    Yields (skip count) run () :=
  (yields_bytes h).bind_pure

theorem yields_word {run : Bytes} {width : Nat} (h : run.length = width) :
    Yields (word width) run run.ofLittleEndian :=
  (yields_bytes h).bind_pure

/-- A word comes back from bytes of its number, through what makes a word of the number. -/
theorem Yields.of_word {f : Nat → α} {run : Bytes} {width number : Nat} {value : α}
    (length : run.length = width) (here : run.ofLittleEndian = number) (back : f number = value) :
    Yields (do return f (← word width)) run value := by
  have answer : Yields (do return f (← word width)) run (f run.ofLittleEndian) :=
    (yields_word length).bind_pure
  rwa [here, back] at answer

theorem yields_uint8 (value : UInt8) : Yields uint8 [value] value :=
  .of_word rfl (show Bytes.ofLittleEndian [value] = value.toNat by simp [Bytes.ofLittleEndian])
    UInt8.ofNat_toNat

theorem yields_uint16 (value : UInt16) : Yields uint16 (Bytes.ofUInt16 value) value :=
  .of_word (Bytes.length_littleEndian 2 _) (Bytes.ofLittleEndian_ofUInt16 value) UInt16.ofNat_toNat

theorem yields_uint32 (value : UInt32) : Yields uint32 (Bytes.ofUInt32 value) value :=
  .of_word (Bytes.length_littleEndian 4 _) (Bytes.ofLittleEndian_ofUInt32 value) UInt32.ofNat_toNat

theorem yields_uint64 (value : UInt64) : Yields uint64 (Bytes.ofUInt64 value) value :=
  .of_word (Bytes.length_littleEndian 8 _) (Bytes.ofLittleEndian_ofUInt64 value) UInt64.ofNat_toNat

theorem yields_uint32_ofNat {value : Nat} (fits : value < UInt32.size) :
    Yields uint32 (Bytes.littleEndian 4 value) (UInt32.ofNat value) := by
  have read := yields_uint32 (UInt32.ofNat value)
  rwa [Bytes.ofUInt32, UInt32.toNat_ofNat_of_lt' fits] at read

/-- A signed word comes back with the unsigned word of the same bytes. -/
theorem Yields.signed {operation : Read α} {f : α → β} {run : Bytes} {bits : α} {value : β}
    (h : Yields operation run bits) (back : f bits = value) :
    Yields (do return f (← operation)) run value :=
  back ▸ h.bind_pure

theorem yields_int8 (value : Int8) : Yields int8 (Bytes.ofInt8 value) value :=
  (yields_uint8 _).signed value.toInt8_toUInt8

theorem yields_int16 (value : Int16) : Yields int16 (Bytes.ofInt16 value) value :=
  (yields_uint16 _).signed value.toInt16_toUInt16

theorem yields_int32 (value : Int32) : Yields int32 (Bytes.ofInt32 value) value :=
  (yields_uint32 _).signed value.toInt32_toUInt32

theorem yields_int64 (value : Int64) : Yields int64 (Bytes.ofInt64 value) value :=
  (yields_uint64 _).signed value.toInt64_toUInt64

/-- Moving to a place of the byte string leaves what lies before it behind. -/
theorem seek_between {r : Reader} {passed ahead : Bytes} (h : r.data = passed ++ ahead) :
    seek passed.length r = .ok () (between passed ahead) := by
  have inside : passed.length ≤ r.data.length := by simp [h]
  rw [seek_of_le inside]
  congr 1
  exact ext_pos h rfl

theorem peek_between (passed ahead : Bytes) (byte : UInt8) :
    peek (between passed (byte :: ahead)) = .ok byte (between passed (byte :: ahead)) :=
  rfl

/-- A text comes back from its bytes, none of them zero, and a zero byte. -/
theorem yields_text {name : Bytes} (h : 0 ∉ name) :
    Yields text (name ++ [0]) (Text.latin1 name) := by
  have found (ahead : Bytes) : (0 : UInt8) ∈ name ++ [0] ++ ahead := by simp
  have cut (ahead : Bytes) : Text.untilZero (name ++ [0] ++ ahead) = name := by
    rw [List.append_assoc]
    exact Text.untilZero_append h ahead
  intro passed ahead
  rw [text, dif_pos (show 0 ∈ (between passed (name ++ [0] ++ ahead)).rest from found ahead),
    advance_between _ (by rw [rest_between, cut ahead, List.length_append]; rfl)]
  simp only [rest_between, cut ahead]

end Read

/-- The byte strings of a list of items: a form of each, one behind the other. -/
inductive Forms (form : α → Bytes → Prop) : List α → Bytes → Prop where
  | nil : Forms form [] []
  | cons {item : α} {items : List α} {run bytes : Bytes} (first : form item run)
      (others : Forms form items bytes) : Forms form (item :: items) (run ++ bytes)

theorem forms_flatMap {form : α → Bytes → Prop} {encode : α → Bytes} {items : List α}
    (h : ∀ item ∈ items, form item (encode item)) : Forms form items (items.flatMap encode) := by
  induction items with
  | nil => exact .nil
  | cons item items ih =>
      rw [List.flatMap_cons]
      exact .cons (h item (by simp)) (ih fun other member => h other (by simp [member]))

theorem Forms.singleton {form : α → Bytes → Prop} {item : α} {run : Bytes} (h : form item run) :
    Forms form [item] run := by
  have single : Forms form [item] (run ++ []) := .cons h .nil
  rwa [List.append_nil] at single

theorem Forms.imp {form other : α → Bytes → Prop} {items : List α} {bytes : Bytes}
    (forms : Forms form items bytes) (h : ∀ item ∈ items, ∀ run, form item run → other item run) :
    Forms other items bytes := by
  induction forms with
  | nil => exact .nil
  | cons first _ ih =>
      obtain ⟨here, others⟩ := List.forall_mem_cons.mp h
      exact .cons (here _ first) (ih others)

theorem Forms.append {form : α → Bytes → Prop} {items others : List α} {bytes more : Bytes}
    (front : Forms form items bytes) (back : Forms form others more) :
    Forms form (items ++ others) (bytes ++ more) := by
  induction front with
  | nil => exact back
  | cons first _ ih =>
      rw [List.cons_append, List.append_assoc]
      exact .cons first ih

namespace Read

open Reader

/-- Repeating a step goes over the forms of items and finds the items. -/
theorem gather_forms {step : Read (Option α)} {progress : Progress step} {items : List α}
    {bytes : Bytes} (forms : Forms (fun item run => Yields step run (some item)) items bytes)
    (passed ahead : Bytes) :
    (between passed (bytes ++ ahead)).gather step progress
      = ((between (passed ++ bytes) ahead).gather step progress).prepend items := by
  induction forms generalizing passed with
  | nil => simp [Gathered.prepend]
  | @cons item items run bytes first others ih =>
      rw [List.append_assoc, gather_of_some (first passed (bytes ++ ahead)), ih,
        List.append_assoc]
      simp [Gathered.prepend]

/-- A list is read from the forms of its items and the terminator behind them. -/
theorem yields_list {step : Read (Option α)} {progress : Progress step} {items : List α}
    {bytes stop : Bytes}
    (forms : Forms (fun item run => Yields step run (some item)) items bytes)
    (last : Yields step stop none) : Yields (list step progress) (bytes ++ stop) items := by
  intro passed ahead
  have ended := last (passed ++ bytes) ahead
  rw [list, List.append_assoc, gather_forms forms, gather_of_none ended]
  simp [Gathered.prepend]

end Read

end DspFirmware
