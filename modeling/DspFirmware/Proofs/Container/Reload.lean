import DspFirmware.Container.Operation
import DspFirmware.Proofs.Container.Acceptance
import DspFirmware.Proofs.Container.RoundTrip

/-!
What readings leave behind in a container. Offsets, digests and the declared size have no influence on
what is written, nor on what any later operations make of the container, and a reload replaces all of
them.
-/

namespace DspFirmware.Container

/-- What a container says of its own: the header, and kind, address and payload of each segment. -/
def contents (c : Container) : Header × List (SegmentKind × UInt32 × Bytes) :=
  (c.header, c.segments.map fun s => (s.kind, s.address, s.data))

/-- The container of some contents that has not been read. -/
def ofContents (contents : Header × List (SegmentKind × UInt32 × Bytes)) : Container where
  header := contents.1
  segments := contents.2.map fun (kind, address, data) => .ofPayload kind address data
  fileSize := 0

theorem serialize_ofContents (c : Container) : (ofContents c.contents).serialize = c.serialize := by
  -- Whatever is written of a segment looks at its contents only.
  have placed (s : Segment) (p : Placement) :
      describe (.ofPayload s.kind s.address s.data) p = describe s p := rfl
  have data (s : Segment) : (Segment.ofPayload s.kind s.address s.data).data = s.data := rfl
  simp only [serialize, placements, size, payloads, ofContents, contents, List.map_map,
    List.length_map, List.zipWith_map_left, List.flatMap_map, List.isEmpty_map, Function.comp_def,
    placed, data]

/-- Writing depends on the contents only. -/
theorem serialize_congr {c d : Container} (same : c.contents = d.contents) :
    c.serialize = d.serialize := by
  rw [← serialize_ofContents c, same, serialize_ofContents]

theorem reload_congr {c d : Container} (same : c.contents = d.contents) : c.reload = d.reload :=
  congrArg (· >>= parse) (serialize_congr same)

/-- A reload fails only where writing does. -/
theorem reload_eq (c : Container) : c.reload = c.serialize.map fun _ => c.settled := by
  rw [reload]
  cases written : c.serialize with
  | error fault => rfl
  | ok bytes => exact settled_of_serialize written

theorem contents_settled (c : Container) : c.settled.contents = c.contents :=
  congrArg (Prod.mk c.header) (map_settle payloadBase c.segments)

theorem reload_eq_ok_iff {c back : Container} :
    c.reload = .ok back ↔ (∃ bytes, c.serialize = .ok bytes) ∧ back = c.settled := by
  rw [reload_eq]
  cases c.serialize with
  | error fault => exact ⟨nofun, nofun⟩
  | ok bytes => exact ⟨fun h => ⟨⟨bytes, rfl⟩, (Except.ok.inj h).symm⟩, fun h => by rw [h.2]; rfl⟩

/-- No operation makes a difference between containers of the same contents. -/
theorem step_congr {c d : Container} (same : c.contents = d.contents) (operation : Operation) :
    (c.step operation).contents = (d.step operation).contents := by
  obtain ⟨header, segments⟩ := Prod.mk.inj same
  cases operation with
  | new => rfl
  | setSyncLoad enabled => exact congrArg₂ Prod.mk (congrArg (·.setSyncLoad enabled) header) segments
  | addSegment kind address data =>
      refine congrArg₂ Prod.mk header ?_
      simp only [step, Operation.apply, addSegment, List.map_append, segments]
  | editHeader edit => exact congrArg₂ Prod.mk (congrArg edit header) segments
  | parse data =>
      simp only [step, Operation.apply]
      split
      · rfl
      · exact same
  | reload =>
      simp only [step, Operation.apply, reload_congr same]
      split
      · rfl
      · exact same

theorem run_congr {c d : Container} (same : c.contents = d.contents) (operations : List Operation) :
    (c.run operations).contents = (d.run operations).contents := by
  induction operations generalizing c d with
  | nil => exact same
  | cons operation rest ih => exact ih (step_congr same operation)

/-- Whatever has been done with a container, writing it depends on its contents only, and so does all
that is done with it afterwards. A reload succeeds where writing does, and is without effect otherwise.
It changes neither the contents nor what is written, and makes every digest match, whether it did before
or not. Another reload gives the same container in all its parts. -/
theorem run_reload (start : Container) (operations : List Operation) :
    let c := start.run operations
    (∀ other : Container, other.contents = c.contents → other.serialize = c.serialize ∧
      ∀ later, (other.run later).contents = (c.run later).contents) ∧
    ((∃ back, c.reload = .ok back) ↔ ∃ bytes, c.serialize = .ok bytes) ∧
    (∀ fault, c.reload = .error fault → start.run (operations ++ [.reload]) = c) ∧
    ∀ back, c.reload = .ok back →
      start.run (operations ++ [.reload]) = back ∧ back.contents = c.contents ∧
        back.digestsMatch = true ∧ back.serialize = c.serialize ∧ back.reload = .ok back := by
  intro c
  have last : start.run (operations ++ [.reload]) = c.step .reload := List.foldl_concat _ _ _ _
  refine ⟨fun other same => ⟨serialize_congr same, run_congr same⟩, ?_, fun fault failed => ?_,
    fun back reloaded => ?_⟩
  · constructor
    · rintro ⟨back, reloaded⟩
      exact (reload_eq_ok_iff.mp reloaded).1
    · exact fun written => ⟨_, reload_eq_ok_iff.mpr ⟨written, rfl⟩⟩
  · rw [last, step, Operation.apply, failed]
  · obtain ⟨_, rfl⟩ := reload_eq_ok_iff.mp reloaded
    have contents := contents_settled c
    refine ⟨?_, contents, digestsMatch_settled c, serialize_congr contents, ?_⟩
    · rw [last, step, Operation.apply, reloaded]
    · rw [reload_congr contents, reloaded]

/-- A file with overlapping ranges, wrong digests and a false size is read, and the container changed
before it is reloaded. -/
theorem run_reload_overlapping :
    let c := Container.empty.run
      [.parse overlapping, .parse [1, 2, 3], .setSyncLoad true, .addSegment .prog0 0x40 [1, 2]]
    c.segments.length = 3 ∧ c.fileSize = 1 ∧ c.digestsMatch = false ∧
      ∃ back, c.reload = .ok back ∧ back.contents = c.contents ∧ back.digestsMatch = true ∧
        back.serialize = c.serialize ∧ back.reload = .ok back := by
  intro c
  have before : c.segments.length = 3 ∧ c.fileSize = 1 ∧ c.digestsMatch = false ∧
      payloadBase + c.payloads.length < UInt32.size := by decide +kernel
  obtain ⟨count, fileSize, digests, fits⟩ := before
  have written : c.serialize = .ok (c.front ++ c.payloads) :=
    serialize_eq_ok_iff.mpr ⟨by rw [count]; decide, Or.inr fits, rfl⟩
  obtain ⟨_, reloads, _, afterwards⟩ := run_reload Container.empty
    [.parse overlapping, .parse [1, 2, 3], .setSyncLoad true, .addSegment .prog0 0x40 [1, 2]]
  obtain ⟨back, reloaded⟩ := reloads.mpr ⟨_, written⟩
  exact ⟨count, fileSize, digests, back, reloaded, (afterwards back reloaded).2⟩

end DspFirmware.Container
