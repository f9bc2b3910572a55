import DspFirmware.Leb128

/-!
Reading one item after another until a terminator or a fault.

`Read.Forward` says of an operation that, where it succeeds, it stays in its byte string and does not
move back; `Read.Consumes` says that it moves forward. What consumes can be repeated: `gather`
collects the items that a consuming step delivers and stops with the last of them.
-/

namespace DspFirmware

/-- The same byte string, at a position not before. -/
def Reader.Reaches (r s : Reader) : Prop := s.data = r.data ∧ r.pos ≤ s.pos

theorem Reader.Reaches.trans {r s t : Reader} (first : r.Reaches s) (second : s.Reaches t) :
    r.Reaches t :=
  ⟨second.1.trans first.1, Nat.le_trans first.2 second.2⟩

theorem Reader.length_rest_lt {r s : Reader} (same : s.data = r.data) (further : r.pos < s.pos) :
    s.rest.length < r.rest.length := by
  have inside := s.pos_le
  rw [same] at inside
  rw [length_rest, length_rest, same]
  omega

namespace Read

/-- Success does not move back. -/
def Forward (operation : Read α) : Prop :=
  ∀ ⦃r answer s⦄, operation r = .ok answer s → r.Reaches s

/-- Success moves forward. -/
def Consumes (operation : Read α) : Prop :=
  ∀ ⦃r answer s⦄, operation r = .ok answer s → s.data = r.data ∧ r.pos < s.pos

/-- A sequence succeeds when both parts do, each where the one before it stopped. -/
theorem bind_eq_ok {operation : Read α} {next : α → Read β} {r s : Reader} {answer : β} :
    (operation >>= next) r = .ok answer s ↔
      ∃ middle t, operation r = .ok middle t ∧ next middle t = .ok answer s := by
  change EStateM.bind operation next r = .ok answer s ↔ _
  unfold EStateM.bind
  cases operation r with
  | ok middle t =>
      constructor
      · exact fun after => ⟨middle, t, rfl, after⟩
      · rintro ⟨_, _, ⟨rfl, rfl⟩, after⟩
        exact after
  | error fault t => simp

theorem pure_eq_ok {value answer : α} {r s : Reader} :
    (pure value : Read α) r = .ok answer s ↔ value = answer ∧ r = s := by
  change EStateM.Result.ok value r = .ok answer s ↔ _
  simp

theorem map_eq_ok {operation : Read α} {f : α → β} {r s : Reader} {answer : β} :
    (f <$> operation) r = .ok answer s ↔ ∃ middle, operation r = .ok middle s ∧ f middle = answer := by
  change EStateM.map f operation r = .ok answer s ↔ _
  unfold EStateM.map
  cases operation r with
  | ok middle t =>
      simp only [EStateM.Result.ok.injEq]
      constructor
      · rintro ⟨same, rfl⟩
        exact ⟨middle, ⟨rfl, rfl⟩, same⟩
      · rintro ⟨_, ⟨rfl, rfl⟩, same⟩
        exact ⟨same, rfl⟩
  | error fault t => simp

theorem Consumes.forward {operation : Read α} (consumes : Consumes operation) :
    Forward operation :=
  fun _ _ _ success => ⟨(consumes success).1, Nat.le_of_lt (consumes success).2⟩

theorem forward_pure (value : α) : Forward (pure value : Read α) := by
  intro r answer s success
  obtain ⟨_, rfl⟩ := pure_eq_ok.mp success
  exact ⟨rfl, Nat.le_refl _⟩

theorem Forward.bind {operation : Read α} {next : α → Read β} (first : Forward operation)
    (second : ∀ value, Forward (next value)) : Forward (operation >>= next) := by
  intro r answer s success
  obtain ⟨value, t, left, right⟩ := bind_eq_ok.mp success
  exact (first left).trans (second value right)

theorem Consumes.bind {operation : Read α} {next : α → Read β} (first : Consumes operation)
    (second : ∀ value, Forward (next value)) : Consumes (operation >>= next) := by
  intro r answer s success
  obtain ⟨value, t, left, right⟩ := bind_eq_ok.mp success
  have start := first left
  have reach := second value right
  exact ⟨reach.1.trans start.1, Nat.lt_of_lt_of_le start.2 reach.2⟩

theorem Forward.bind_consumes {operation : Read α} {next : α → Read β} (first : Forward operation)
    (second : ∀ value, Consumes (next value)) : Consumes (operation >>= next) := by
  intro r answer s success
  obtain ⟨value, t, left, right⟩ := bind_eq_ok.mp success
  have reach := first left
  have finish := second value right
  exact ⟨finish.1.trans reach.1, Nat.lt_of_le_of_lt reach.2 finish.2⟩

theorem Consumes.map {operation : Read α} {f : α → β} (consumes : Consumes operation) :
    Consumes (f <$> operation) := by
  intro r answer s success
  obtain ⟨value, left, _⟩ := map_eq_ok.mp success
  exact consumes left

theorem Forward.map {operation : Read α} {f : α → β} (forward : Forward operation) :
    Forward (f <$> operation) := by
  intro r answer s success
  obtain ⟨value, left, _⟩ := map_eq_ok.mp success
  exact forward left

/-- Reading bytes moves by their number. -/
theorem bytes_eq_ok {count : Nat} {r s : Reader} {answer : Bytes}
    (success : bytes count r = .ok answer s) :
    answer = r.rest.take count ∧ s.data = r.data ∧ s.pos = r.pos + count := by
  unfold bytes at success
  split at success
  · cases success
    exact ⟨rfl, rfl, rfl⟩
  · cases success

theorem forward_bytes (count : Nat) : Forward (bytes count) := by
  intro r answer s success
  obtain ⟨_, same, moved⟩ := bytes_eq_ok success
  exact ⟨same, by omega⟩

theorem consumes_bytes {count : Nat} (positive : 0 < count) : Consumes (bytes count) := by
  intro r answer s success
  obtain ⟨_, same, moved⟩ := bytes_eq_ok success
  exact ⟨same, by omega⟩

theorem consumes_skip {count : Nat} (positive : 0 < count) : Consumes (skip count) :=
  (consumes_bytes positive).bind fun _ => forward_pure _

theorem consumes_word {width : Nat} (positive : 0 < width) : Consumes (word width) :=
  (consumes_bytes positive).bind fun _ => forward_pure _

theorem consumes_uint8 : Consumes uint8 :=
  (consumes_word (by decide)).bind fun _ => forward_pure _

theorem consumes_uint16 : Consumes uint16 :=
  (consumes_word (by decide)).bind fun _ => forward_pure _

theorem forward_peek : Forward peek := by
  intro r answer s success
  unfold peek at success
  split at success
  · cases success
  · cases success
    exact ⟨rfl, Nat.le_refl _⟩

theorem forward_throw (fault : Fault) : Forward (throw fault : Read α) := by
  intro r answer s success
  cases success

theorem consumes_text : Consumes text := by
  intro r answer s success
  unfold text at success
  split at success
  · cases success
    exact ⟨rfl, by simp only [Reader.advance]; omega⟩
  · cases success

theorem consumes_scanned {scan : Bytes → Leb128.Scan α}
    (within : ∀ bytes, (scan bytes).Within bytes.length) : Consumes (scanned scan within) := by
  intro r answer s success
  unfold scanned at success
  split at success
  · rename_i value length found
    cases success
    have := within r.rest
    rw [found] at this
    exact ⟨rfl, by simp only [Reader.advance]; have := this.1; omega⟩
  · cases success
  · cases success

theorem consumes_uleb128 : Consumes uleb128 := (consumes_scanned _).map

theorem consumes_sleb128 : Consumes sleb128 := consumes_scanned _

/-- A step that moves forward whenever it delivers an item. -/
def Progress (step : Read (Option α)) : Prop :=
  ∀ ⦃r item s⦄, step r = .ok (some item) s → s.data = r.data ∧ r.pos < s.pos

theorem Consumes.progress {step : Read (Option α)} (consumes : Consumes step) : Progress step :=
  fun _ _ _ success => consumes success

end Read

/-- The items that a repeated step has delivered, and how it ended. -/
structure Gathered (α : Type) where
  items : List α
  /-- Behind the terminator, or in front of the item with the fault. -/
  stop : Reader
  fault : Option Fault

namespace Gathered

/-- Repeats a step behind the items already found, which are given last first. -/
def continued (step : Read (Option α)) (progress : Read.Progress step) (found : List α)
    (r : Reader) : Gathered α :=
  match _taken : step r with
  | .ok none s => ⟨found.reverse, s, none⟩
  | .ok (some item) s => continued step progress (item :: found) s
  | .error fault _ => ⟨found.reverse, r, some fault⟩
termination_by r.rest.length
decreasing_by exact Reader.length_rest_lt (progress _taken).1 (progress _taken).2

def prepend (items : List α) (g : Gathered α) : Gathered α := { g with items := items ++ g.items }

/-- Earlier items have no influence on later ones. -/
theorem continued_eq_prepend (step : Read (Option α)) (progress : Read.Progress step)
    (found : List α) (r : Reader) :
    continued step progress found r = (continued step progress [] r).prepend found.reverse := by
  induction length : r.rest.length using Nat.strongRecOn generalizing found r with
  | _ size ih =>
      rw [continued, continued]
      split
      · simp [prepend]
      · rename_i item s taken
        have shorter : s.rest.length < size :=
          length ▸ Reader.length_rest_lt (progress taken).1 (progress taken).2
        rw [ih _ shorter (item :: found) s rfl, ih _ shorter [item] s rfl]
        simp [prepend]
      · simp [prepend]

end Gathered

namespace Reader

/-- Repeats a step until it delivers no item. -/
def gather (step : Read (Option α)) (progress : Read.Progress step) (r : Reader) : Gathered α :=
  Gathered.continued step progress [] r

theorem gather_of_none {step : Read (Option α)} {progress : Read.Progress step} {r s : Reader}
    (taken : step r = .ok none s) : r.gather step progress = ⟨[], s, none⟩ := by
  rw [gather, Gathered.continued]
  split
  · rename_i same; rw [taken] at same; cases same; rfl
  · rename_i same; rw [taken] at same; cases same
  · rename_i same; rw [taken] at same; cases same

theorem gather_of_some {step : Read (Option α)} {progress : Read.Progress step} {r s : Reader}
    {item : α} (taken : step r = .ok (some item) s) :
    r.gather step progress = (s.gather step progress).prepend [item] := by
  rw [gather, Gathered.continued]
  split
  · rename_i same; rw [taken] at same; cases same
  · rename_i same
    rw [taken] at same
    cases same
    exact Gathered.continued_eq_prepend step progress [item] s
  · rename_i same; rw [taken] at same; cases same

theorem gather_of_error {step : Read (Option α)} {progress : Read.Progress step} {r s : Reader}
    {fault : Fault} (taken : step r = .error fault s) :
    r.gather step progress = ⟨[], r, some fault⟩ := by
  rw [gather, Gathered.continued]
  split
  · rename_i same; rw [taken] at same; cases same
  · rename_i same; rw [taken] at same; cases same
  · rename_i same; rw [taken] at same; cases same; rfl

end Reader

namespace Read

/-- Reads items until there are no more of them. -/
def list (step : Read (Option α)) (progress : Progress step) : Read (List α) := fun r =>
  match (r.gather step progress) with
  | ⟨items, stop, none⟩ => .ok items stop
  | ⟨_, stop, some fault⟩ => .error fault stop

/-- A list is what was delivered, if the step ended without a fault. -/
theorem list_eq_ok {step : Read (Option α)} {progress : Progress step} {r s : Reader}
    {items : List α} :
    list step progress r = .ok items s ↔ r.gather step progress = ⟨items, s, none⟩ := by
  rw [list]
  obtain ⟨found, stop, fault⟩ := r.gather step progress
  cases fault <;> simp

end Read

end DspFirmware
