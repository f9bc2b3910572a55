import Mathlib.Data.List.SplitBy
import DspFirmware.Proofs.LineTable.Lookup

/-!
The rows of a program as sequences, and what a question for an address makes of them.

A search compares every row with the one behind it. Where addresses ascend within a sequence, it
comes to the last row below the address in each sequence that spans it, and of those to the nearest.
-/

namespace DspFirmware.LineTable

/-- The rows, cut behind each one that closes a sequence. The last sequence may be left open. -/
def sequences (rows : List Row) : List (List Row) := rows.splitBy fun row _ => !row.endSequence

/-- Addresses do not decrease from row to row. -/
def Ascending (sequence : List Row) : Prop := sequence.Pairwise (·.address ≤ ·.address)

instance : DecidablePred Ascending := fun sequence =>
  inferInstanceAs (Decidable (sequence.Pairwise (·.address ≤ ·.address)))

/-- A sequence has an instruction closely below the address, and a row above it later on. -/
def Spans (address : UInt32) (sequence : List Row) : Prop :=
  ∃ row next, [row, next].Sublist sequence ∧ row.endSequence = false ∧ row.address < address
    ∧ address.toNat < row.address.toNat + 0x20 ∧ address < next.address

def lastBelow (address : UInt32) (sequence : List Row) : Option Row :=
  (sequence.filter (·.address < address)).getLast?

/-- The row is the last one below the address in a sequence that spans it. It is nearer than those of
the sequences in front, and as near as those of the sequences behind or nearer. -/
inductive Nearest (address : UInt32) : List (List Row) → Row → Prop where
  | intro {earlier later : List (List Row)} {sequence : List Row} {row : Row}
      (spans : Spans address sequence) (last : lastBelow address sequence = some row)
      (nearer : ∀ other ∈ earlier, Spans address other → ∀ rival ∈ lastBelow address other,
        rival.address < row.address)
      (asNear : ∀ other ∈ later, Spans address other → ∀ rival ∈ lastBelow address other,
        rival.address ≤ row.address) :
      Nearest address (earlier ++ sequence :: later) row

/-- The rows with the ones behind them that an address lies between. -/
def surrounding (address : UInt32) (rows : List Row) : List (Row × Row) :=
  (neighbours rows).filter fun pair => Program.coversAddress address pair.1 pair.2

theorem coversAddress_iff {address : UInt32} {row next : Row} :
    Program.coversAddress address row next ↔
      row.endSequence = false ∧ row.address < address ∧ address < next.address
        ∧ address.toNat < row.address.toNat + 0x20 := by
  simp only [Program.coversAddress, Bool.and_eq_true, Bool.not_eq_true', decide_eq_true_eq,
    and_assoc]
  refine and_congr_right fun _ => and_congr_right fun below => and_congr_right fun _ => ?_
  have positive := UInt32.lt_iff_toNat_lt.mp below
  rw [addressBound]
  omega

theorem surrounding_cons_cons (address : UInt32) (row next : Row) (rest : List Row) :
    surrounding address (row :: next :: rest) =
      if Program.coversAddress address row next then
        (row, next) :: surrounding address (next :: rest)
      else surrounding address (next :: rest) :=
  List.filter_cons

/-- No address lies between the last row of a sequence and the first of the next. -/
theorem surrounding_append {address : UInt32} {first : List Row} (rest : List Row)
    (closed : ∀ row ∈ first.getLast?, row.endSequence) :
    surrounding address (first ++ rest) = surrounding address first ++ surrounding address rest := by
  induction first with
  | nil => rfl
  | cons row first ih =>
      cases first with
      | nil =>
          have ends : row.endSequence := closed row rfl
          cases rest with
          | nil => rfl
          | cons next rest =>
              have apart : ¬Program.coversAddress address row next := by
                simp [coversAddress_iff, ends]
              rw [List.cons_append, List.nil_append, surrounding_cons_cons, if_neg apart]
              rfl
      | cons next first =>
          have later := ih fun last member => closed last (by rwa [List.getLast?_cons_cons])
          rw [List.cons_append] at later
          rw [List.cons_append, List.cons_append, surrounding_cons_cons, surrounding_cons_cons,
            later]
          split <;> rfl

theorem surrounding_flatten {address : UInt32} {parts : List (List Row)}
    (closed : parts.IsChain fun part _ => ∀ row ∈ part.getLast?, row.endSequence) :
    surrounding address parts.flatten = parts.flatMap (surrounding address) := by
  induction parts with
  | nil => rfl
  | cons part parts ih =>
      rw [List.flatten_cons, List.flatMap_cons]
      cases parts with
      | nil => simp [surrounding, neighbours]
      | cons next parts =>
          rw [List.isChain_cons_cons] at closed
          rw [surrounding_append _ closed.1, ih closed.2]

theorem surrounding_eq_flatMap (address : UInt32) (rows : List Row) :
    surrounding address rows = (sequences rows).flatMap (surrounding address) := by
  rw [← surrounding_flatten, sequences, List.flatten_splitBy]
  refine (List.isChain_getLast_head_splitBy _ rows).imp ?_
  rintro part next ⟨filled, _, closed⟩ row last
  rw [List.getLast?_eq_some_getLast filled, Option.mem_some_iff] at last
  simpa [last] using closed

/-- Only the last row of a sequence may close it. -/
def Unbroken (sequence : List Row) : Prop := sequence.IsChain fun row _ => row.endSequence = false

theorem Unbroken.head {row next : Row} {rest : List Row} (h : Unbroken (row :: next :: rest)) :
    row.endSequence = false :=
  (List.isChain_cons_cons.mp h).1

theorem Unbroken.tail {row : Row} {rest : List Row} (h : Unbroken (row :: rest)) : Unbroken rest :=
  List.IsChain.tail h

theorem unbroken_of_mem_sequences {rows sequence : List Row}
    (member : sequence ∈ sequences rows) : Unbroken sequence :=
  (List.isChain_of_mem_splitBy member).imp fun _ _ open' => by simpa using open'

theorem mem_of_mem_sequences {rows sequence : List Row} (member : sequence ∈ sequences rows)
    {row : Row} (inside : row ∈ sequence) : row ∈ rows := by
  rw [← List.flatten_splitBy (fun row _ => !row.endSequence) rows]
  exact List.mem_flatten_of_mem member inside

section Ascent

variable {address : UInt32}

theorem spans_cons_iff {row : Row} {rest : List Row} :
    Spans address (row :: rest) ↔
      (row.endSequence = false ∧ row.address < address ∧ address.toNat < row.address.toNat + 0x20
        ∧ ∃ next ∈ rest, address < next.address) ∨ Spans address rest := by
  constructor
  · rintro ⟨first, next, sublist, open', below, near, above⟩
    rcases List.sublist_cons_iff.mp sublist with later | ⟨tail, same, later⟩
    · exact .inr ⟨first, next, later, open', below, near, above⟩
    · obtain ⟨rfl, rfl⟩ := List.cons.inj same
      exact .inl ⟨open', below, near, next, List.singleton_sublist.mp later, above⟩
  · rintro (⟨open', below, near, next, member, above⟩ | ⟨first, next, later, conditions⟩)
    · exact ⟨row, next, (List.singleton_sublist.mpr member).cons_cons row, open', below, near, above⟩
    · exact ⟨first, next, later.cons row, conditions⟩

instance decidableSpans : (sequence : List Row) → Decidable (Spans address sequence)
  | [] => isFalse (by rintro ⟨_, _, sublist, _⟩; cases sublist)
  | _ :: rest =>
      have := decidableSpans rest
      decidable_of_iff _ spans_cons_iff.symm

theorem surrounding_eq_nil {rows : List Row} (above : ∀ row ∈ rows, address ≤ row.address) :
    surrounding address rows = [] := by
  refine List.filter_eq_nil_iff.mpr fun pair member covers => ?_
  obtain ⟨_, below, _⟩ := coversAddress_iff.mp covers
  exact UInt32.not_le.mpr below (above _ (fst_mem_of_mem_neighbours member))

theorem not_spans_of_above {sequence : List Row}
    (above : ∀ row ∈ sequence, address ≤ row.address) : ¬Spans address sequence := by
  rintro ⟨row, next, sublist, _, below, _⟩
  exact UInt32.not_le.mpr below (above row (sublist.subset List.mem_cons_self))

/-- A row has no influence when the one behind it lies below the address as well. -/
theorem spans_cons_cons_of_below {row next : Row} {rest : List Row}
    (unbroken : Unbroken (row :: next :: rest)) (ascending : Ascending (row :: next :: rest))
    (below : next.address < address) :
    Spans address (row :: next :: rest) ↔ Spans address (next :: rest) := by
  constructor
  · intro spans
    rcases spans_cons_iff.mp spans with ⟨_, _, near, far, member, above⟩ | later
    · rcases List.mem_cons.mp member with rfl | beyond
      · exact absurd above (UInt32.lt_asymm below)
      · have open' : next.endSequence = false := by
          cases rest with
          | nil => cases beyond
          | cons third rest => exact unbroken.tail.head
        have order : row.address ≤ next.address :=
          (List.pairwise_cons.mp ascending).1 next List.mem_cons_self
        have := UInt32.le_iff_toNat_le.mp order
        exact spans_cons_iff.mpr (.inl ⟨open', below, by omega, far, beyond, above⟩)
    · exact later
  · exact fun later => spans_cons_iff.mpr (.inr later)

/-- At the last row that may lie below the address, to span it is to surround it. A row at the
address could only close the sequence. -/
theorem spans_cons_cons_of_above {row next : Row} {rest : List Row}
    (unbroken : Unbroken (row :: next :: rest))
    (free : next.endSequence = false → next.address ≠ address)
    (above : ∀ other ∈ next :: rest, address ≤ other.address) :
    Spans address (row :: next :: rest) ↔ Program.coversAddress address row next := by
  rw [spans_cons_iff, or_iff_left (not_spans_of_above above), coversAddress_iff]
  constructor
  · rintro ⟨open', below, near, far, member, farAbove⟩
    refine ⟨open', below, ?_, near⟩
    rcases UInt32.lt_or_eq_of_le (above next List.mem_cons_self) with strict | here
    · exact strict
    · cases rest with
      | nil => rwa [← List.mem_singleton.mp member]
      | cons third rest => exact absurd here.symm (free unbroken.tail.head)
  · rintro ⟨open', below, nextAbove, near⟩
    exact ⟨open', below, near, next, List.mem_cons_self, nextAbove⟩

theorem lastBelow_cons_cons_of_below {row next : Row} {rest : List Row}
    (below : next.address < address) :
    lastBelow address (row :: next :: rest) = lastBelow address (next :: rest) := by
  rw [lastBelow, lastBelow, List.filter_cons]
  split
  · rw [List.filter_cons_of_pos (by simpa using below), List.getLast?_cons_cons]
  · rfl

theorem lastBelow_cons_of_above {row : Row} {rest : List Row} (below : row.address < address)
    (above : ∀ other ∈ rest, address ≤ other.address) :
    lastBelow address (row :: rest) = some row := by
  have beyond : rest.filter (·.address < address) = [] :=
    List.filter_eq_nil_iff.mpr fun other member => by simpa using above other member
  rw [lastBelow, List.filter_cons_of_pos (by simpa using below), beyond]
  rfl

/-- Within an ascending sequence a search finds the last row below the address where the sequence
spans it, and nothing where it does not. -/
theorem surrounding_of_ascending {sequence : List Row} (unbroken : Unbroken sequence)
    (ascending : Ascending sequence)
    (free : ∀ row ∈ sequence, row.endSequence = false → row.address ≠ address) :
    (Spans address sequence ∧ ∃ row next, surrounding address sequence = [(row, next)]
        ∧ lastBelow address sequence = some row)
      ∨ (¬Spans address sequence ∧ surrounding address sequence = []) := by
  induction sequence with
  | nil => exact .inr ⟨not_spans_of_above (by simp), rfl⟩
  | cons row rest ih =>
      cases rest with
      | nil => exact .inr ⟨by simp [spans_cons_iff, not_spans_of_above], rfl⟩
      | cons next rest =>
          have ascendingRest : Ascending (next :: rest) := (List.pairwise_cons.mp ascending).2
          rw [surrounding_cons_cons]
          -- Only the one pair that crosses the address matters, and nothing below it comes behind.
          by_cases below : next.address < address
          · have passed : ¬Program.coversAddress address row next := fun covers =>
              UInt32.lt_asymm below (coversAddress_iff.mp covers).2.2.1
            rw [if_neg passed, spans_cons_cons_of_below unbroken ascending below,
              lastBelow_cons_cons_of_below below]
            exact ih unbroken.tail ascendingRest fun other member =>
              free other (List.mem_cons_of_mem row member)
          · have above : ∀ other ∈ next :: rest, address ≤ other.address := by
              refine List.forall_mem_cons.mpr ⟨UInt32.not_lt.mp below, fun other later => ?_⟩
              exact UInt32.le_trans (UInt32.not_lt.mp below)
                ((List.pairwise_cons.mp ascendingRest).1 other later)
            rw [surrounding_eq_nil above,
              spans_cons_cons_of_above unbroken (free next (by simp)) above]
            by_cases covers : Program.coversAddress address row next
            · exact .inl ⟨covers, row, next, if_pos covers,
                lastBelow_cons_of_above (coversAddress_iff.mp covers).2.1 above⟩
            · exact .inr ⟨covers, if_neg covers⟩

/-- What a search finds in a sequence. -/
def candidate? (address : UInt32) (sequence : List Row) : Option Row :=
  (surrounding address sequence).head?.map (·.1)

theorem candidate?_of_ascending {sequence : List Row} (unbroken : Unbroken sequence)
    (ascending : Ascending sequence)
    (free : ∀ row ∈ sequence, row.endSequence = false → row.address ≠ address) :
    (surrounding address sequence).map (·.1) = (candidate? address sequence).toList
      ∧ ∀ row, candidate? address sequence = some row ↔
        Spans address sequence ∧ lastBelow address sequence = some row := by
  rw [candidate?]
  rcases surrounding_of_ascending unbroken ascending free with
    ⟨spans, row, next, found, last⟩ | ⟨apart, nothing⟩
  · simp [found, spans, last]
  · simp [nothing, apart]

end Ascent

theorem lt_of_lastBelow {address : UInt32} {sequence : List Row} {row : Row}
    (h : lastBelow address sequence = some row) : row.address < address := by
  simpa using (List.mem_filter.mp (List.mem_of_getLast? h)).2

theorem exists_lastBelow_of_spans {address : UInt32} {sequence : List Row}
    (h : Spans address sequence) : ∃ row, lastBelow address sequence = some row := by
  obtain ⟨row, next, sublist, _, below, _⟩ := h
  have member : row ∈ sequence.filter (·.address < address) :=
    List.mem_filter.mpr ⟨sublist.subset List.mem_cons_self, by simpa using below⟩
  exact ⟨_, List.getLast?_eq_some_getLast (List.ne_nil_of_mem member)⟩

/-- Of equally small elements the first is taken. -/
theorem eq_append_of_minOn? {f : α → Nat} {xs : List α} {x : α} (h : xs.minOn? f = some x) :
    ∃ before after, xs = before ++ x :: after ∧ (∀ y ∈ before, f x < f y)
      ∧ ∀ y ∈ after, f x ≤ f y := by
  induction xs generalizing x with
  | nil => simp at h
  | cons first rest ih =>
      rw [List.minOn?_cons, Option.some.injEq] at h
      cases smallest : rest.minOn? f with
      | none =>
          have : ¬rest ≠ [] := fun filled => by
            simpa [smallest] using List.isSome_minOn?_iff (f := f).mpr filled
          rw [smallest] at h
          exact ⟨[], rest, by rw [← h]; rfl, by simp, by simp_all⟩
      | some other =>
          obtain ⟨before, after, hRest, nearer, asNear⟩ := ih smallest
          rw [smallest, Option.elim_some] at h
          by_cases order : f first ≤ f other
          · rw [minOn_eq_left order] at h
            subst h
            refine ⟨[], rest, rfl, by simp, fun y member => ?_⟩
            rw [hRest, List.mem_append, List.mem_cons] at member
            rcases member with member | rfl | member
            · exact order.trans (nearer y member).le
            · exact order
            · exact order.trans (asNear y member)
          · rw [minOn_eq_right order] at h
            subst h
            refine ⟨first :: before, after, by rw [hRest]; rfl, ?_, asNear⟩
            exact List.forall_mem_cons.mpr ⟨Nat.lt_of_not_le order, nearer⟩

/-- The nearest of what a search finds in the sequences. -/
theorem nearest_of_minOn? {address : UInt32} {parts : List (List Row)} {row : Row}
    (found : ∀ part ∈ parts, ∀ row, candidate? address part = some row ↔
      Spans address part ∧ lastBelow address part = some row)
    (h : (parts.filterMap (candidate? address)).minOn?
      (fun row => address.toNat - row.address.toNat) = some row) :
    Nearest address parts row := by
  obtain ⟨before, after, hFound, nearer, asNear⟩ := eq_append_of_minOn? h
  obtain ⟨first, second, rfl, rfl, hSecond⟩ := List.filterMap_eq_append_iff.mp hFound
  -- Sequences without a candidate may stand in front of the chosen one, behind those with rivals.
  obtain ⟨skipped, sequence, later, rfl, nothing, chosen, rfl⟩ :=
    List.filterMap_eq_cons_iff.mp hSecond
  obtain ⟨spans, last⟩ := (found sequence (by simp) row).mp chosen
  have rowBelow := UInt32.lt_iff_toNat_lt.mp (lt_of_lastBelow last)
  rw [← List.append_assoc]
  refine .intro spans last ?_ ?_
  · intro other member otherSpans rival rivalLast
    have rivalChosen := (found other
      (by rw [← List.append_assoc]; exact List.mem_append_left _ member) rival).mpr
      ⟨otherSpans, rivalLast⟩
    have rivalBelow := UInt32.lt_iff_toNat_lt.mp (lt_of_lastBelow rivalLast)
    rcases List.mem_append.mp member with inFirst | inSkipped
    · have := nearer rival (List.mem_filterMap.mpr ⟨other, inFirst, rivalChosen⟩)
      exact UInt32.lt_iff_toNat_lt.mpr (by omega)
    · rw [nothing other inSkipped] at rivalChosen
      cases rivalChosen
  · intro other member otherSpans rival rivalLast
    have rivalChosen := (found other (by simp [member]) rival).mpr ⟨otherSpans, rivalLast⟩
    have rivalBelow := UInt32.lt_iff_toNat_lt.mp (lt_of_lastBelow rivalLast)
    have := asNear rival (List.mem_filterMap.mpr ⟨other, member, rivalChosen⟩)
    exact UInt32.le_iff_toNat_le.mpr (by omega)

namespace Program

variable {program : Program} {address : UInt32}

theorem rowForAddress_of_free
    (free : ∀ row ∈ program.rows, row.endSequence = false → row.address ≠ address) :
    program.rowForAddress address =
      ((surrounding address program.rows).map (·.1)).minOn? fun row =>
        address.toNat - row.address.toNat := by
  have absent : program.rows.find? (fun row => !row.endSequence && row.address == address) = none :=
    List.find?_eq_none.mpr fun row member => by simpa using free row member
  rw [rowForAddress, absent]
  rfl

/-- What answers between the rows of ascending sequences: of the last rows below the address that
sequences spanning it have, the nearest. -/
theorem rowForAddress_of_ascending
    (ascending : ∀ sequence ∈ sequences program.rows, Ascending sequence)
    (free : ∀ row ∈ program.rows, row.endSequence = false → row.address ≠ address) :
    ((∀ sequence ∈ sequences program.rows, ¬Spans address sequence) →
        program.rowForAddress address = none)
      ∧ ((∃ sequence ∈ sequences program.rows, Spans address sequence) →
        ∃ row, Nearest address (sequences program.rows) row
          ∧ program.rowForAddress address = some row) := by
  have found {sequence : List Row} (member : sequence ∈ sequences program.rows) :=
    candidate?_of_ascending (unbroken_of_mem_sequences member) (ascending sequence member)
      fun row inside => free row (mem_of_mem_sequences member inside)
  have searched : (surrounding address program.rows).map (·.1)
      = (sequences program.rows).filterMap (candidate? address) := by
    rw [surrounding_eq_flatMap, List.map_flatMap, List.filterMap_eq_flatMap_toList]
    exact List.flatMap_congr fun sequence member => (found member).1
  rw [rowForAddress_of_free free, searched]
  constructor
  · intro apart
    have nothing : (sequences program.rows).filterMap (candidate? address) = [] := by
      refine List.filterMap_eq_nil_iff.mpr fun sequence member => ?_
      exact Option.eq_none_iff_forall_ne_some.mpr fun row chosen =>
        apart sequence member (((found member).2 row).mp chosen).1
    rw [nothing, List.minOn?_nil]
  · rintro ⟨sequence, member, spans⟩
    obtain ⟨last, hLast⟩ := exists_lastBelow_of_spans spans
    have inside : last ∈ (sequences program.rows).filterMap (candidate? address) :=
      List.mem_filterMap.mpr ⟨sequence, member, ((found member).2 last).mpr ⟨spans, hLast⟩⟩
    obtain ⟨row, chosen⟩ := Option.isSome_iff_exists.mp
      (List.isSome_minOn?_of_mem (f := fun row => address.toNat - row.address.toNat) inside)
    exact ⟨row, nearest_of_minOn? (fun part member => (found member).2) chosen, chosen⟩

/-- The first instruction at an address answers for it. -/
theorem rowForAddress_of_first {before after : List Row} {row : Row}
    (hRows : program.rows = before ++ row :: after) (instruction : row.endSequence = false)
    (here : row.address = address)
    (first : ∀ other ∈ before, other.endSequence = false → other.address ≠ address) :
    program.rowForAddress address = some row := by
  have sought : program.rows.find? (fun row => !row.endSequence && row.address == address)
      = some row := by
    rw [List.find?_eq_some_iff_append]
    exact ⟨by simp [instruction, here], before, after, hRows,
      fun other member => by simpa [or_iff_not_imp_left] using first other member⟩
  rw [rowForAddress, sought]

/-- A row that answers lies in one sequence with what it was compared with. -/
theorem exists_sequence_of_rowForAddress {row : Row}
    (h : program.rowForAddress address = some row) :
    ∃ sequence ∈ sequences program.rows, row ∈ sequence ∧ row.endSequence = false
      ∧ row.address ≤ address ∧ address.toNat < row.address.toNat + 0x20
      ∧ (row.address = address ∨ ∃ next, (row, next) ∈ neighbours sequence
        ∧ address < next.address) := by
  obtain ⟨member, instruction, rfl | ⟨next, adjacent, covers⟩⟩ := of_rowForAddress h
  · rw [← List.flatten_splitBy (fun row _ => !row.endSequence) program.rows] at member
    obtain ⟨sequence, isSequence, inside⟩ := List.mem_flatten.mp member
    exact ⟨sequence, isSequence, inside, instruction, UInt32.le_refl _, by omega, .inl rfl⟩
  · have pair : (row, next) ∈ surrounding address program.rows :=
      List.mem_filter.mpr ⟨adjacent, covers⟩
    rw [surrounding_eq_flatMap] at pair
    obtain ⟨sequence, isSequence, inside⟩ := List.mem_flatMap.mp pair
    have within := (List.mem_filter.mp inside).1
    obtain ⟨_, below, above, near⟩ := coversAddress_iff.mp covers
    exact ⟨sequence, isSequence, fst_mem_of_mem_neighbours within, instruction,
      UInt32.le_of_lt below, near, .inr ⟨next, within, above⟩⟩

/-- What a question for an address answers. If addresses ascend within each sequence, it is the first
instruction at the address, and failing that the nearest of the last rows below it in the sequences
that span it, if there are any. In every program an answer lies closely at or below the address, and
is an instruction, compared with a row of its own sequence only. -/
theorem lookupAddress_nearest (program : Program) (address : UInt32) :
    ((∀ sequence ∈ sequences program.rows, Ascending sequence) →
      (∀ before row after, program.rows = before ++ row :: after → row.endSequence = false →
          row.address = address →
          (∀ other ∈ before, other.endSequence = false → other.address ≠ address) →
          program.Resolves row (program.lookupAddress address))
        ∧ ((∀ row ∈ program.rows, row.endSequence = false → row.address ≠ address) →
          ((∀ sequence ∈ sequences program.rows, ¬Spans address sequence) →
              program.lookupAddress address = .ok none)
            ∧ ((∃ sequence ∈ sequences program.rows, Spans address sequence) →
              ∃ row, Nearest address (sequences program.rows) row
                ∧ program.Resolves row (program.lookupAddress address))))
      ∧ ∀ location, program.lookupAddress address = .ok (some location) →
          location.address ≤ address ∧ address.toNat < location.address.toNat + 0x20
          ∧ ∃ sequence ∈ sequences program.rows, ∃ row ∈ sequence, row.endSequence = false
            ∧ program.Resolves row (.ok (some location))
            ∧ (row.address = address ∨ ∃ next, (row, next) ∈ neighbours sequence
              ∧ address < next.address) := by
  refine ⟨fun ascending => ⟨?_, fun free => ?_⟩, ?_⟩
  · intro before row after hRows instruction here first
    exact lookupAddress_of_some (rowForAddress_of_first hRows instruction here first)
  · obtain ⟨apart, spanned⟩ := rowForAddress_of_ascending ascending free
    refine ⟨fun outside => lookupAddress_of_none (apart outside), fun inside => ?_⟩
    obtain ⟨row, nearest, hRow⟩ := spanned inside
    exact ⟨row, nearest, lookupAddress_of_some hRow⟩
  · intro location h
    cases hRow : program.rowForAddress address with
    | none =>
        rw [lookupAddress_of_none hRow] at h
        cases h
    | some row =>
        have resolved := lookupAddress_of_some hRow
        rw [h] at resolved
        obtain ⟨sequence, isSequence, inside, instruction, below, near, compared⟩ :=
          exists_sequence_of_rowForAddress hRow
        have same : location.address = row.address := by cases resolved; rfl
        rw [same]
        exact ⟨below, near, sequence, isSequence, row, inside, instruction, resolved, compared⟩

/-- Three sequences that overlap, the last of them left open. -/
def overlapping : Program where
  header := Draft.sample.header
  directories := ["src"]
  files := [⟨"a.c", 1, 0, 0⟩, ⟨"b.c", 1, 0, 0⟩]
  rows := [
    ⟨0x10, 1, 1, 0, true, false, false⟩, ⟨0x30, 1, 1, 0, true, false, true⟩,
    ⟨0x18, 1, 5, 0, true, false, false⟩, ⟨0x30, 1, 5, 0, true, false, true⟩,
    ⟨0x18, 2, 1, 0, true, false, false⟩, ⟨0x40, 2, 9, 0, true, false, false⟩]

/-- The second sequence is nearer than the first and in front of the third. -/
theorem lookupAddress_nearest_overlapping :
    (∀ sequence ∈ sequences overlapping.rows, Ascending sequence)
      ∧ overlapping.Resolves ⟨0x18, 1, 5, 0, true, false, false⟩ (overlapping.lookupAddress 0x18)
      ∧ (∃ row, Nearest 0x1c (sequences overlapping.rows) row
          ∧ overlapping.Resolves row (overlapping.lookupAddress 0x1c))
      ∧ overlapping.lookupAddress 0x1c = .ok (some ⟨0x18, "src", "a.c", 5, 0⟩)
      ∧ overlapping.lookupAddress 0x38 = .ok none := by
  have ascending : ∀ sequence ∈ sequences overlapping.rows, Ascending sequence := by decide
  obtain ⟨first, _⟩ := (lookupAddress_nearest overlapping 0x18).1 ascending
  obtain ⟨_, between⟩ := (lookupAddress_nearest overlapping 0x1c).1 ascending
  obtain ⟨_, beyond⟩ := (lookupAddress_nearest overlapping 0x38).1 ascending
  exact ⟨ascending, first (overlapping.rows.take 2) _ (overlapping.rows.drop 3) (by decide)
      (by decide) (by decide) (by decide),
    (between (by decide)).2 (by decide), by decide, (beyond (by decide)).1 (by decide)⟩

end Program

end DspFirmware.LineTable
