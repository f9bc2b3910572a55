import Mathlib.Data.List.TakeWhile
import DspFirmware.Proofs.CommandLine.Rendering

/-!
Arguments are read as the configuration that they tell. What a group of words tells is settled in front of
the next one, and settings of different kinds do not touch each other, so that the groups may stand in any
order.
-/

namespace DspFirmware.CommandLine

namespace Arguments.Draft

/-- Writes down a setting. -/
def put (draft : Draft) : Setting → Draft
  | .input path => { draft with input := some path }
  | .output path => { draft with output := some path }
  | .syncLoad => { draft with syncLoad := true }
  | .addressQuery address => { draft with addressQuery := some address }
  | .lineQuery query => { draft with lineQuery := some query }
  | .logLevel filter => { draft with logLevel := some filter }

/-- Whether the setting of a place, or the flag, is known. -/
def given (draft : Draft) : Option Slot → Bool
  | none => draft.syncLoad
  | some slot => draft.filled slot

section Settings

variable {draft : Draft} {setting other : Setting}

theorem given_put (draft : Draft) (setting : Setting) (slot : Option Slot) :
    (draft.put setting).given slot = (slot = setting.slot? || draft.given slot) := by
  cases setting <;> rcases slot with _ | (_ | _ | _ | _ | _) <;> simp [put, given, filled, Setting.slot?]

/-- Settings of different kinds can be written down in either order. -/
theorem put_comm (apart : setting.slot? ≠ other.slot?) (draft : Draft) :
    (draft.put setting).put other = (draft.put other).put setting := by
  cases setting <;> cases other <;> simp_all [put, Setting.slot?]

/-- The order in which settings of different kinds are written down does not matter. -/
theorem foldl_put_of_perm {settings told : List Setting} (perm : told.Perm settings)
    (kinds : (settings.map Setting.slot?).Nodup) (draft : Draft) :
    told.foldl put draft = settings.foldl put draft := by
  refine perm.foldl_eq' (fun setting first other second draft => ?_) draft
  by_cases same : setting.slot? = other.slot?
  · rw [List.inj_on_of_nodup_map kinds (perm.mem_iff.mp first) (perm.mem_iff.mp second) same]
  · exact put_comm same draft

end Settings

section Words

variable {draft : Draft} {setting : Setting} {slot : Slot} {name value text : String}

/-- A plain word is no option. -/
theorem take_of_plain (unended : draft.optionsEnded = false) (plain : Plain text) :
    draft.take text = draft.takeWord text := by
  obtain ⟨c, rest, chars, undashed⟩ := plain_iff.mp plain
  rw [take, unended, if_neg Bool.false_ne_true, chars]
  split <;> simp_all

/-- A word with two dashes is taken as a name, with what is attached behind the first equals sign. -/
theorem take_of_dashes (unended : draft.optionsEnded = false) {rest : List Char} (named : rest ≠ [])
    (dashes : text.toList = '-' :: '-' :: rest) :
    draft.take text = draft.takeLong (String.ofList (rest.takeWhile (· != '='))) (afterEquals rest) := by
  rw [take, unended, if_neg Bool.false_ne_true, dashes]
  cases rest with
  | nil => exact absurd rfl named
  | cons c others => rfl

/-- A name without an equals sign is taken as a whole. -/
theorem take_name (unended : draft.optionsEnded = false) (named : name ≠ "") (whole : '=' ∉ name.toList) :
    draft.take ("--" ++ name) = draft.takeLong name none := by
  have inName : ∀ c ∈ name.toList, (c != '=') = true := fun c member =>
    bne_iff_ne.mpr (ne_of_mem_of_not_mem member whole)
  have nonempty : name.toList ≠ [] := fun empty => named (String.toList_eq_nil_iff.mp empty)
  rw [take_of_dashes unended nonempty (String.toList_append ..), afterEquals,
    List.takeWhile_eq_self_iff.mpr inName, List.dropWhile_eq_nil_iff.mpr inName, String.ofList_toList]

/-- What stands behind the first equals sign is attached, other equals signs included. -/
theorem take_name_attached (unended : draft.optionsEnded = false) (whole : '=' ∉ name.toList)
    (value : String) : draft.take ("--" ++ name ++ "=" ++ value) = draft.takeLong name (some value) := by
  have inName : ∀ c ∈ name.toList, (c != '=') = true := fun c member =>
    bne_iff_ne.mpr (ne_of_mem_of_not_mem member whole)
  have chars : ("--" ++ name ++ "=" ++ value).toList
      = '-' :: '-' :: (name.toList ++ '=' :: value.toList) := by
    simp [String.toList_append]
  rw [take_of_dashes unended (List.append_ne_nil_of_right_ne_nil _ (List.cons_ne_nil _ _)) chars,
    afterEquals, List.takeWhile_append_of_pos inName, List.dropWhile_append_of_pos inName]
  simp

theorem take_syncLoad (unended : draft.optionsEnded = false) :
    draft.take "--sync-load" = draft.takeSyncLoad := by
  rw [take, unended]
  rfl

theorem take_s (unended : draft.optionsEnded = false) : draft.take "-s" = draft.takeSyncLoad := by
  rw [take, unended]
  change draft.takeSyncLoad >>= Except.ok = _
  cases draft.takeSyncLoad <;> rfl

theorem take_o (unended : draft.optionsEnded = false) :
    draft.take "-o" = draft.takeOption .output none := by
  rw [take, unended]
  rfl

/-- An option is taken for the place of its setting. -/
theorem exists_slot_of_optionName? (option : setting.optionName? = some name) :
    name ≠ "" ∧ '=' ∉ name.toList ∧ ∃ slot, setting.slot? = some slot ∧
      ∀ (draft : Draft) attached, draft.takeLong name attached = draft.takeOption slot attached := by
  cases setting <;> cases option <;> exact ⟨by decide, by decide, _, rfl, fun draft attached => rfl⟩

/-- The text of a setting fills its place. -/
theorem fill_of_spelledBy (plain : setting.Plain) (spelled : setting.SpelledBy text)
    (place : setting.slot? = some slot) : draft.fill slot text = .ok (draft.put setting) := by
  have path {path : String} (plain : Plain path) : readPath path = .ok path :=
    if_neg (mt String.isEmpty_iff.mp plain.1)
  cases setting <;> cases place
  case input =>
    subst spelled
    rw [fill, path plain]
    rfl
  case output =>
    subst spelled
    rw [fill, path plain]
    rfl
  case addressQuery => rw [fill, readAddress_of_spells spelled, put]
  case lineQuery => rw [fill, readSourceLine_of_spells plain.1 spelled, put]
  case logLevel =>
    subst spelled
    rfl

end Words

/-- All that has been told is written down. -/
structure Settled (draft : Draft) : Prop where
  unended : draft.optionsEnded = false
  all : draft.pending = none

/-- Arguments up to here have told what is written down in `settled`, and no option waits for its value.
The last value may not have been looked at yet, but it will be accepted. -/
structure SettlesTo (draft settled : Draft) : Prop where
  unended : draft.optionsEnded = false
  unawaited : ∀ slot, draft.pending ≠ some ⟨slot, none⟩
  settle_eq : draft.settle = .ok settled
  input : draft.input.isSome ∨ draft.pending.any (·.slot = .input) → settled.given (some .input) = true
  settled : settled.Settled

section Steps

variable {draft settled : Draft} {setting : Setting} {slot : Slot} {name value text : String}

theorem Settled.put (all : settled.Settled) (setting : Setting) : (settled.put setting).Settled := by
  cases setting <;> exact ⟨all.unended, all.all⟩

theorem Settled.settlesTo_self (all : settled.Settled) : settled.SettlesTo settled where
  unended := all.unended
  unawaited := fun slot => by simp [all.all]
  settle_eq := by rw [settle, all.all]
  input := by simp [all.all, given, filled]
  settled := all

/-- A free place accepts the text of its setting. -/
theorem assign_of_spelledBy (free : settled.given setting.slot? = false)
    (place : setting.slot? = some slot) (plain : setting.Plain) (spelled : setting.SpelledBy text) :
    settled.assign slot (some text) = .ok (settled.put setting) := by
  rw [place] at free
  have unfilled : ¬settled.filled slot = true := Bool.eq_false_iff.mp free
  rw [assign]
  exact (if_neg unfilled).trans (fill_of_spelledBy plain spelled place)

/-- A value that is still to be looked at settles to its setting. -/
theorem SettlesTo.pend (settles : draft.SettlesTo settled) (free : settled.given setting.slot? = false)
    (place : setting.slot? = some slot) (plain : setting.Plain) (spelled : setting.SpelledBy text) :
    ({ settled with pending := some ⟨slot, some text⟩ } : Draft).SettlesTo (settled.put setting) where
  unended := settles.settled.unended
  unawaited := fun slot => by simp
  settle_eq := by
    have same : { settled with pending := none } = settled := by rw [← settles.settled.all]
    change ({ settled with pending := none } : Draft).assign slot (some text) = _
    rw [same]
    exact assign_of_spelledBy free place plain spelled
  input := by
    rw [given_put, place]
    rintro (written | waits)
    · simp [given, filled, written]
    · have here : slot = .input := by simpa using waits
      simp [here]
  settled := settles.settled.put setting

/-- An option that waits for its value is followed by it. -/
theorem SettlesTo.tellValue (settles : draft.SettlesTo settled)
    (free : settled.given setting.slot? = false) (place : setting.slot? = some slot)
    (plain : setting.Plain) (spelled : setting.SpelledBy value) {word : String}
    (option : draft.take word = draft.takeOption slot none) :
    ∃ next : Draft, [word, value].foldlM take draft = .ok next ∧ next.SettlesTo (settled.put setting) := by
  have waiting : draft.take word = .ok { settled with pending := some ⟨slot, none⟩ } := by
    rw [option, takeOption, settles.settle_eq]
    rfl
  have answered : ({ settled with pending := some ⟨slot, none⟩ } : Draft).take value
      = .ok { settled with pending := some ⟨slot, some value⟩ } :=
    take_of_plain settles.settled.unended (Setting.plain_of_spelledBy plain spelled)
  -- The value stays pending: it is looked at when the next word is taken, or at the end.
  refine ⟨_, ?_, settles.pend free place plain spelled⟩
  rw [List.foldlM_cons, waiting]
  change ({ settled with pending := some ⟨slot, none⟩ } : Draft).take value >>= _ = _
  rw [answered]
  rfl

/-- A flag is settled at once. -/
theorem SettlesTo.tellFlag (settles : draft.SettlesTo settled) (free : settled.syncLoad = false)
    {word : String} (flag : draft.take word = draft.takeSyncLoad) :
    ∃ next : Draft, [word].foldlM take draft = .ok next ∧ next.SettlesTo (settled.put .syncLoad) := by
  refine ⟨_, ?_, (settles.settled.put .syncLoad).settlesTo_self⟩
  rw [List.foldlM_cons, flag, takeSyncLoad, settles.settle_eq]
  change (if settled.syncLoad then _ else _) >>= _ = _
  rw [free]
  rfl

/-- A setting that is told is written down behind the others. -/
theorem SettlesTo.tell {words : List String} (settles : draft.SettlesTo settled)
    (free : settled.given setting.slot? = false) (plain : setting.Plain)
    (rendered : setting.Rendered words) :
    ∃ next : Draft, words.foldlM take draft = .ok next ∧ next.SettlesTo (settled.put setting) := by
  cases rendered with
  | positional path =>
      refine ⟨_, ?_, settles.pend free rfl plain rfl⟩
      have unknown : ¬(draft.input.isSome ∨ draft.pending.any (·.slot = .input)) := fun known =>
        Bool.false_ne_true (free.symm.trans (settles.input known))
      have positional : draft.take path = draft.takePositional path := by
        rw [take_of_plain settles.unended plain, takeWord]
        split
        · rename_i slot waiting
          exact absurd waiting (settles.unawaited slot)
        · rfl
      rw [List.foldlM_cons, positional, takePositional, if_neg unknown, settles.settle_eq]
      rfl
  | flag => exact settles.tellFlag free (take_syncLoad settles.unended)
  | shortFlag => exact settles.tellFlag free (take_s settles.unended)
  | separate name value option spelled =>
      obtain ⟨named, whole, slot, place, long⟩ := exists_slot_of_optionName? option
      exact settles.tellValue free place plain spelled
        ((take_name settles.unended named whole).trans (long draft none))
  | attached name value option spelled =>
      obtain ⟨-, whole, slot, place, long⟩ := exists_slot_of_optionName? option
      refine ⟨_, ?_, (settles.settled.put setting).settlesTo_self⟩
      rw [List.foldlM_cons, take_name_attached settles.unended whole, long, takeOption, settles.settle_eq]
      change settled.assign slot (some value) >>= _ = _
      rw [assign_of_spelledBy free place plain spelled]
      rfl
  | shortOutput path => exact settles.tellValue free rfl plain rfl (take_o settles.unended)

/-- Settings of different kinds that are told one after the other are all written down. -/
theorem SettlesTo.tellAll {told : List Setting} {groups : List (List String)}
    (settles : draft.SettlesTo settled) (kinds : (told.map Setting.slot?).Nodup)
    (free : ∀ setting ∈ told, settled.given setting.slot? = false)
    (plain : ∀ setting ∈ told, setting.Plain) (rendered : List.Forall₂ Setting.Rendered told groups) :
    ∃ next : Draft, groups.flatten.foldlM take draft = .ok next
      ∧ next.SettlesTo (told.foldl put settled) := by
  -- The settings that are still to come stay free, since none of them is of the kind just told.
  induction rendered generalizing draft settled with
  | nil => exact ⟨draft, rfl, settles⟩
  | @cons setting words others groups first _ ih =>
      obtain ⟨new, kinds⟩ := List.nodup_cons.mp kinds
      obtain ⟨here, free⟩ := List.forall_mem_cons.mp free
      obtain ⟨plainHere, plain⟩ := List.forall_mem_cons.mp plain
      obtain ⟨middle, taken, settles⟩ := settles.tell here plainHere first
      have free : ∀ other ∈ others, (settled.put setting).given other.slot? = false := by
        intro other member
        have apart : other.slot? ≠ setting.slot? := by
          intro same
          exact new (same ▸ List.mem_map_of_mem member)
        simp [given_put, apart, free other member]
      obtain ⟨next, rest, settles⟩ := ih settles kinds free plain
      refine ⟨next, ?_, settles⟩
      rw [List.flatten_cons, List.foldlM_append, taken]
      exact rest

/-- A configuration is made of what is written down. -/
theorem SettlesTo.finish_eq (settles : draft.SettlesTo settled) : draft.finish = settled.finish := by
  rw [finish, settles.settle_eq, finish, settle, settles.settled.all]

end Steps

end Arguments.Draft

theorem Config.foldl_put_settings (config : Config) : config.settings.foldl Arguments.Draft.put {} =
    ⟨config.input, config.output, config.syncLoad, config.addressQuery, config.lineQuery, none, none,
      false⟩ := by
  obtain ⟨input, output, syncLoad, address, line, level⟩ := config
  cases output <;> cases syncLoad <;> cases address <;> cases line <;> rfl

/-- What is told of a configuration is enough to make it, in any order. -/
theorem Config.ToldBy.finish {config : Config} {told : List Setting} (toldBy : config.ToldBy told) :
    (told.foldl Arguments.Draft.put {}).finish = .ok config := by
  have kinds := nodup_settings config
  rcases toldBy with perm | ⟨perm, standard⟩
  · rw [Arguments.Draft.foldl_put_of_perm perm kinds, allSettings, List.foldl_append, foldl_put_settings]
    rfl
  · rw [Arguments.Draft.foldl_put_of_perm perm (kinds.sublist ((List.sublist_append_left _ _).map _)),
      foldl_put_settings]
    exact congrArg (fun level => Except.ok { config with logLevel := level }) standard.symm

/-- Arguments that tell a configuration are read as just this configuration, whatever order they stand in
and whichever words they have for each setting. There are such arguments for each configuration. -/
theorem Arguments.parse_of_renders {config : Config} (plain : config.Plain) :
    config.Renders config.arguments ∧
      ∀ arguments, config.Renders arguments → parse arguments = .ok config := by
  refine ⟨config.renders_arguments, ?_⟩
  rintro arguments ⟨told, groups, toldBy, rendered, rfl⟩
  have start : ({} : Draft).SettlesTo {} := Draft.Settled.settlesTo_self ⟨rfl, rfl⟩
  have nothing : ∀ setting ∈ told, ({} : Draft).given setting.slot? = false := fun setting _ => by
    cases setting <;> rfl
  obtain ⟨draft, taken, settles⟩ := start.tellAll toldBy.nodup nothing (toldBy.plain plain) rendered
  rw [parse, taken]
  change draft.finish = _
  rw [settles.finish_eq, toldBy.finish]

/-- Colons and equals signs in a file name and a path, one value attached and others not. -/
theorem Arguments.parse_of_renders_marks :
    let config : Config := ⟨"fw.elf", some "a=b:c", true, some 0x1f0, some ⟨"x:y=z.c", 42⟩, "info"⟩
    let arguments := ["--line2addr=x:y=z.c:042", "-s", "--addr2line", "0x1F0", "fw.elf", "-o", "a=b:c"]
    config.Plain ∧ config.Renders arguments ∧ Arguments.parse arguments = .ok config := by
  intro config arguments
  have plain : config.Plain := ⟨by decide, by decide, by decide, by decide⟩
  have address : SpellsAddress "0x1F0" 0x1f0 :=
    .inr ⟨['1', 'F', '0'], rfl, by decide, [1, 15, 0], .cons rfl (.cons rfl (.cons rfl .nil)), rfl⟩
  have line : SpellsLine "x:y=z.c:042" ⟨"x:y=z.c", 42⟩ :=
    ⟨['0', '4', '2'], rfl, by decide, [0, 4, 2], .cons rfl (.cons rfl (.cons rfl .nil)), rfl⟩
  have renders : config.Renders arguments := by
    refine ⟨[.lineQuery ⟨"x:y=z.c", 42⟩, .syncLoad, .addressQuery 0x1f0, .input "fw.elf", .output "a=b:c"],
      [["--line2addr=x:y=z.c:042"], ["-s"], ["--addr2line", "0x1F0"], ["fw.elf"], ["-o", "a=b:c"]],
      .inr ⟨by decide, rfl⟩, ?_, rfl⟩
    exact .cons (.attached "line2addr" "x:y=z.c:042" rfl line) (.cons .shortFlag
      (.cons (.separate "addr2line" _ rfl address) (.cons (.positional _) (.cons (.shortOutput _) .nil))))
  exact ⟨plain, renders, (parse_of_renders plain).2 arguments renders⟩

end DspFirmware.CommandLine
