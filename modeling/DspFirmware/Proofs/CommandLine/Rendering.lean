import Mathlib.Data.List.Forall2
import Mathlib.Data.List.Nodup
import DspFirmware.Proofs.CommandLine.Queries

/-!
Arguments that tell a configuration. Each of its settings is told once, by words of its own in one of the
forms that there are for it, and the settings come in any order.
-/

namespace DspFirmware.CommandLine

/-- A text that can stand as a word of its own where an option could stand too. -/
def Plain (text : String) : Prop := text ≠ "" ∧ text.toList.head? ≠ some '-'

instance (text : String) : Decidable (Plain text) := inferInstanceAs (Decidable (_ ∧ _))

theorem plain_iff {text : String} : Plain text ↔ ∃ c rest, text.toList = c :: rest ∧ c ≠ '-' := by
  rw [Plain, ne_eq, ← String.toList_eq_nil_iff]
  cases text.toList <;> simp

/-- One thing to tell of a configuration. -/
inductive Setting where
  | input (path : String)
  | output (path : String)
  | syncLoad
  | addressQuery (address : UInt32)
  | lineQuery (query : SourceLine)
  | logLevel (filter : String)
  deriving DecidableEq, Repr

namespace Setting

/-- The long name of the option for a setting that has a value. -/
def optionName? : Setting → Option String
  | .output _ => some "output"
  | .addressQuery _ => some "addr2line"
  | .lineQuery _ => some "line2addr"
  | .logLevel _ => some "log-level"
  | _ => none

/-- The texts that are a value of a setting. -/
def SpelledBy (text : String) : Setting → Prop
  | .input path => text = path
  | .output path => text = path
  | .syncLoad => False
  | .addressQuery address => SpellsAddress text address
  | .lineQuery query => SpellsLine text query
  | .logLevel filter => text = filter

/-- The words that tell a setting: the value alone, a flag, or an option with the value behind it or
attached to it. -/
inductive Rendered : Setting → List String → Prop
  | positional (path : String) : Rendered (.input path) [path]
  | flag : Rendered .syncLoad ["--sync-load"]
  | shortFlag : Rendered .syncLoad ["-s"]
  | separate {setting : Setting} (name value : String) : setting.optionName? = some name →
      setting.SpelledBy value → Rendered setting ["--" ++ name, value]
  | attached {setting : Setting} (name value : String) : setting.optionName? = some name →
      setting.SpelledBy value → Rendered setting ["--" ++ name ++ "=" ++ value]
  | shortOutput (path : String) : Rendered (.output path) ["-o", path]

/-- Words to print for a setting. -/
def words : Setting → List String
  | .input path => [path]
  | .output path => ["--output", path]
  | .syncLoad => ["--sync-load"]
  | .addressQuery address => ["--addr2line", Text.hexadecimal address.toNat]
  | .lineQuery query => ["--line2addr", query.file ++ ":" ++ Text.decimal query.line.toNat]
  | .logLevel filter => ["--log-level", filter]

theorem rendered_words (setting : Setting) : setting.Rendered setting.words := by
  cases setting with
  | input path => exact .positional path
  | output path => exact .separate "output" path rfl rfl
  | syncLoad => exact .flag
  | addressQuery address => exact .separate "addr2line" _ rfl (spellsAddress_hexadecimal address)
  | lineQuery query => exact .separate "line2addr" _ rfl (spellsLine_decimal query)
  | logLevel filter => exact .separate "log-level" filter rfl rfl

/-- The texts in a setting are plain. -/
def Plain : Setting → Prop
  | .input path => CommandLine.Plain path
  | .output path => CommandLine.Plain path
  | .lineQuery query => CommandLine.Plain query.file
  | .logLevel filter => CommandLine.Plain filter
  | _ => True

/-- The text of a setting is a word that is no option. -/
theorem plain_of_spelledBy {setting : Setting} {text : String} (plain : setting.Plain)
    (spelled : setting.SpelledBy text) : CommandLine.Plain text := by
  cases setting with
  | input path => exact spelled ▸ plain
  | output path => exact spelled ▸ plain
  | syncLoad => cases spelled
  | addressQuery address =>
      rcases spelled with decimal | ⟨digits, split, -⟩
      · obtain ⟨c, rest, chars⟩ := List.exists_cons_of_ne_nil decimal.1
        obtain ⟨value, digit⟩ := decimal.exists_digit c (by simp [chars])
        refine plain_iff.mpr ⟨c, rest, chars, ?_⟩
        rintro rfl
        cases digit
      · exact plain_iff.mpr ⟨'0', _, split, by decide⟩
  | lineQuery query =>
      obtain ⟨digits, split, -⟩ := spelled
      obtain ⟨c, rest, chars, undashed⟩ := plain_iff.mp plain
      exact plain_iff.mpr ⟨c, _, by rw [split, chars, List.cons_append], undashed⟩
  | logLevel filter => exact spelled ▸ plain

/-- The place where a setting is kept. A flag has none. -/
def slot? : Setting → Option Arguments.Slot
  | .input _ => some .input
  | .output _ => some .output
  | .syncLoad => none
  | .addressQuery _ => some .addressQuery
  | .lineQuery _ => some .lineQuery
  | .logLevel _ => some .logLevel

end Setting

namespace Config

/-- All texts of a configuration are plain. -/
structure Plain (config : Config) : Prop where
  input : CommandLine.Plain config.input
  output : ∀ path ∈ config.output, CommandLine.Plain path
  file : ∀ query ∈ config.lineQuery, CommandLine.Plain query.file
  logLevel : CommandLine.Plain config.logLevel

/-- What has to be told of a configuration, its log level aside. -/
def settings (config : Config) : List Setting :=
  .input config.input :: config.output.toList.map .output ++ (if config.syncLoad then [.syncLoad] else [])
    ++ config.addressQuery.toList.map .addressQuery ++ config.lineQuery.toList.map .lineQuery

def allSettings (config : Config) : List Setting := config.settings ++ [.logLevel config.logLevel]

/-- Each setting is told once, in any order. The log level may be left out if it is the default. -/
def ToldBy (config : Config) (told : List Setting) : Prop :=
  told.Perm config.allSettings ∨ told.Perm config.settings ∧ config.logLevel = defaultLogLevel

/-- Arguments tell a configuration, by some words for each setting. -/
def Renders (config : Config) (arguments : List String) : Prop :=
  ∃ told groups, config.ToldBy told ∧ List.Forall₂ Setting.Rendered told groups
    ∧ arguments = groups.flatten

/-- Arguments to print for a configuration. -/
def arguments (config : Config) : List String := (config.allSettings.map Setting.words).flatten

theorem renders_arguments (config : Config) : config.Renders config.arguments := by
  refine ⟨_, _, .inl (List.Perm.refl _), List.forall₂_map_right_iff.mpr ?_, rfl⟩
  exact List.forall₂_same.mpr fun setting _ => setting.rendered_words

variable {config : Config} {told : List Setting}

/-- No kind of setting is told twice. -/
theorem nodup_settings (config : Config) : (config.allSettings.map Setting.slot?).Nodup := by
  obtain ⟨input, output, syncLoad, address, line, level⟩ := config
  cases output <;> cases syncLoad <;> cases address <;> cases line <;>
    simp [allSettings, settings, Setting.slot?]

theorem plain_of_mem_settings (plain : config.Plain) :
    ∀ setting ∈ config.allSettings, setting.Plain := by
  intro setting member
  simp only [allSettings, settings, List.mem_append, List.mem_cons, List.mem_map, Option.mem_toList,
    List.not_mem_nil, or_false] at member
  rcases member with
    ((((rfl | ⟨path, given, rfl⟩) | flag) | ⟨address, given, rfl⟩) | ⟨query, given, rfl⟩) | rfl
  · exact plain.input
  · exact plain.output path given
  · split at flag
    · cases List.mem_singleton.mp flag
      trivial
    · cases flag
  · trivial
  · exact plain.file query given
  · exact plain.logLevel

theorem ToldBy.exists_sublist (toldBy : config.ToldBy told) :
    ∃ kept, told.Perm kept ∧ kept.Sublist config.allSettings := by
  rcases toldBy with perm | ⟨perm, -⟩
  · exact ⟨_, perm, List.Sublist.refl _⟩
  · exact ⟨_, perm, List.sublist_append_left _ _⟩

theorem ToldBy.nodup (toldBy : config.ToldBy told) : (told.map Setting.slot?).Nodup := by
  obtain ⟨kept, perm, sublist⟩ := toldBy.exists_sublist
  exact (perm.map _).nodup_iff.mpr ((nodup_settings config).sublist (sublist.map _))

theorem ToldBy.plain (toldBy : config.ToldBy told) (plain : config.Plain) :
    ∀ setting ∈ told, setting.Plain := by
  obtain ⟨kept, perm, sublist⟩ := toldBy.exists_sublist
  exact fun setting member => plain_of_mem_settings plain setting (sublist.subset (perm.mem_iff.mp member))

end Config

end DspFirmware.CommandLine
