import DspFirmware.CommandLine
import DspFirmware.Proofs.CommandLine.Directory
import DspFirmware.Proofs.Conversion

/-!
What a run leaves behind. A run writes nothing but a whole container, and this only when all stages in
front of the write have succeeded and no question was asked; whatever else happens, no file is made or
changed.
-/

namespace DspFirmware.CommandLine

/-- The files that a run writes, each with its path and contents. -/
def writes (arguments : List String) (files : Directory) : List (String × Bytes) :=
  match Arguments.parse arguments with
  | .error _ => []
  | .ok config =>
      match work config (files.openFile config.input) with
      | .finished _ => []
      | .write path data _ => [(path, data)]

/-- The arguments ask for a conversion, and it succeeds: they are accepted with a log filter and without a
question, the input is opened and is an image, and the container of this image can be written down. -/
structure Converts (arguments : List String) (files : Directory) (config : Config) (data : Bytes) :
    Prop where
  accepted : Arguments.parse arguments = .ok config
  unasked : config.addressQuery = none ∧ config.lineQuery = none
  filter : LogFilter.check config.logLevel = .ok ()
  converted : ∃ input image, files.openFile config.input = .contents input
    ∧ Elf.Image.parse input = .ok image
    ∧ (Conversion.convert Target.teak config.syncLoad image).serialize = .ok data

section

variable {config : Config} {path : String} {data : Bytes}

theorem isQuery_eq_false_iff :
    config.isQuery = false ↔ config.addressQuery = none ∧ config.lineQuery = none := by
  simp [Config.isQuery]

/-- A conversion ends in a write when its container can be written down. -/
theorem convert_eq_write_iff {image : Elf.Image} :
    (∃ text, convert config image = .write path data text) ↔
      (Conversion.convert Target.teak config.syncLoad image).serialize = .ok data
        ∧ path = config.outputPath := by
  rw [convert]
  cases (Conversion.convert Target.teak config.syncLoad image).serialize with
  | error fault => simp
  | ok bytes => simp [and_comm, eq_comm]

/-- Work on what was opened ends in a write when it is an image to convert. -/
theorem workOn_eq_write_iff {input : Opened} : (∃ text, workOn config input = .write path data text) ↔
    config.isQuery = false ∧ path = config.outputPath ∧ ∃ file image, input = .contents file
      ∧ Elf.Image.parse file = .ok image
      ∧ (Conversion.convert Target.teak config.syncLoad image).serialize = .ok data := by
  cases input with
  | notOpened reason => simp [workOn]
  | notMapped reason => simp [workOn]
  | contents file =>
      rw [workOn]
      cases read : Elf.Image.parse file with
      | error fault => simp [read]
      | ok image =>
          cases query : config.isQuery with
          | true => simp
          | false =>
              simp only [Bool.false_eq_true, if_false, convert_eq_write_iff]
              constructor
              · rintro ⟨written, rfl⟩
                exact ⟨trivial, rfl, file, image, rfl, read, written⟩
              · rintro ⟨-, rfl, _, other, ⟨⟩, again, written⟩
                cases read.symm.trans again
                exact ⟨written, rfl⟩

/-- Work ends in a write only behind all stages of a conversion. -/
theorem work_eq_write_iff {input : Opened} : (∃ text, work config input = .write path data text) ↔
    LogFilter.check config.logLevel = .ok () ∧ ∃ text, workOn config input = .write path data text := by
  rw [work]
  cases LogFilter.check config.logLevel with
  | error refusal => cases refusal <;> simp
  | ok accepted => simp

end

/-- A run writes a container where a conversion has succeeded, to the path that is configured for it. -/
theorem mem_writes_iff {arguments : List String} {files : Directory} {path : String} {data : Bytes} :
    (path, data) ∈ writes arguments files ↔
      ∃ config, Converts arguments files config data ∧ path = config.outputPath := by
  have parts {config : Config} : Converts arguments files config data ∧ path = config.outputPath ↔
      Arguments.parse arguments = .ok config
        ∧ ∃ text, work config (files.openFile config.input) = .write path data text := by
    rw [work_eq_write_iff, workOn_eq_write_iff, isQuery_eq_false_iff]
    constructor
    · rintro ⟨⟨accepted, unasked, filter, converted⟩, rfl⟩
      exact ⟨accepted, filter, unasked, rfl, converted⟩
    · rintro ⟨accepted, filter, unasked, rfl, converted⟩
      exact ⟨⟨accepted, unasked, filter, converted⟩, rfl⟩
  simp only [parts]
  rw [writes]
  cases Arguments.parse arguments with
  | error problem => simp
  | ok config =>
      simp only [Except.ok.injEq, exists_eq_left']
      cases work config (files.openFile config.input) with
      | finished outcome => simp
      | write target bytes text => simp [eq_comm]

/-- What becomes of a directory when a file is written, or is not because the system refuses it. -/
def Directory.receive (files : Directory) (write : String × Bytes) : Directory :=
  match files.writeFile write.1 write.2 with
  | .ok written => written.files
  | .error _ => files

/-- A run does nothing to a directory beside its writes. -/
theorem files_run (arguments : List String) (files : Directory) :
    (run arguments files).2 = (writes arguments files).foldl Directory.receive files := by
  rw [run, writes]
  cases Arguments.parse arguments with
  | error problem => rfl
  | ok config =>
      dsimp only
      cases work config (files.openFile config.input) with
      | finished outcome => rfl
      | write path data text =>
          dsimp only [List.foldl_cons, List.foldl_nil, Directory.receive]
          cases files.writeFile path data <;> rfl

theorem length_writes_le (arguments : List String) (files : Directory) :
    (writes arguments files).length ≤ 1 := by
  rw [writes]
  cases Arguments.parse arguments with
  | error problem => exact Nat.zero_le 1
  | ok config =>
      dsimp only
      cases work config (files.openFile config.input) <;> simp

/-- The write of a conversion is the only one. -/
theorem Converts.writes_eq {arguments : List String} {files : Directory} {config : Config} {data : Bytes}
    (converts : Converts arguments files config data) :
    writes arguments files = [(config.outputPath, data)] := by
  have member := mem_writes_iff.mpr ⟨config, converts, rfl⟩
  have few := length_writes_le arguments files
  cases found : writes arguments files with
  | nil => simp [found] at member
  | cons write others =>
      have alone : others = [] := by simpa [found] using few
      rw [found, alone, List.mem_singleton] at member
      rw [alone, member]

/-- What is written where there is a place for a file is put there. -/
theorem receive_of_holds {files : Directory} {path key : String} (holds : (files.target path).Holds key)
    (data : Bytes) : files.receive (path, data) = files.put key data := by
  rw [Directory.receive, Directory.writeFile_of_holds holds]

/-- What is written elsewhere changes no file. -/
theorem receive_of_not_holds {files : Directory} {path : String}
    (outside : ∀ key, ¬(files.target path).Holds key) (data : Bytes) :
    files.receive (path, data) = files := by
  rw [Directory.receive]
  cases done : files.writeFile path data with
  | error reason => rfl
  | ok written => exact Directory.files_of_writeFile outside done

/-- No run leaves a result half done. It writes at most one file: the whole container of an image whose
conversion has succeeded, to the path configured for it. If that path leads to a place for a file, the path
has just these bytes afterwards, and all other files are as they were. In every other case the directory
is as it was. -/
theorem run_writes (arguments : List String) (files : Directory) :
    (writes arguments files).length ≤ 1 ∧
    (∀ path data, (path, data) ∈ writes arguments files ↔
      ∃ config, Converts arguments files config data ∧ path = config.outputPath) ∧
    (run arguments files).2 = (writes arguments files).foldl Directory.receive files ∧
    (∀ config data key, Converts arguments files config data →
      (files.target config.outputPath).Holds key →
      (run arguments files).2.openFile config.outputPath = .contents data ∧
      ∀ name, (run arguments files).2.lookup name
        = if name = key then some data else files.lookup name) ∧
    ((∀ config data key, Converts arguments files config data →
      ¬(files.target config.outputPath).Holds key) → (run arguments files).2 = files) := by
  refine ⟨length_writes_le arguments files, fun path data => mem_writes_iff, files_run arguments files,
    fun config data key converts holds => ?written, fun unwritten => ?unchanged⟩
  case written =>
    have after : (run arguments files).2 = files.put key data := by
      rw [files_run, converts.writes_eq]
      exact receive_of_holds holds data
    rw [after]
    exact ⟨Directory.openFile_put holds data, Directory.lookup_put files key data⟩
  case unchanged =>
    rw [files_run]
    by_cases converted : ∃ config data, Converts arguments files config data
    · obtain ⟨config, data, converts⟩ := converted
      rw [converts.writes_eq]
      exact receive_of_not_holds (fun key => unwritten config data key converts) data
    · have unwritten : writes arguments files = [] := by
        refine List.eq_nil_iff_forall_not_mem.mpr fun write member => converted ?_
        obtain ⟨config, converts, -⟩ := mem_writes_iff.mp member
        exact ⟨config, write.2, converts⟩
      rw [unwritten]
      rfl

/-- An image with three bytes to load. -/
def sampleImage : Bytes :=
  Elf.Draft.encode ⟨0, 0, [⟨".text", 1, 0x200, [0x11, 0x22, 0x33], 0, 0⟩]⟩ .fileHeader

def sampleFiles : Directory := [("fw.elf", sampleImage), ("out/note", [1])]

/-- A conversion into another directory, the same with a refused log filter, and a question. -/
theorem run_writes_sample :
    ∃ data, writes ["-s", "fw.elf", "-o", "out/./fw.bin"] sampleFiles = [("out/./fw.bin", data)]
      ∧ (run ["-s", "fw.elf", "-o", "out/./fw.bin"] sampleFiles).2.openFile "out/./fw.bin"
        = .contents data
      ∧ (run ["-s", "fw.elf", "-o", "out/./fw.bin"] sampleFiles).2.lookup "out/fw.bin" = some data
      ∧ (run ["-s", "fw.elf", "-o", "out/./fw.bin"] sampleFiles).2.lookup "fw.elf" = some sampleImage
      ∧ (run ["-s", "fw.elf", "--log-level", "a=b"] sampleFiles).2 = sampleFiles
      ∧ (run ["-s", "fw.elf", "--addr2line", "0"] sampleFiles).2 = sampleFiles := by
  have accepted : Arguments.parse ["-s", "fw.elf", "-o", "out/./fw.bin"]
      = .ok ⟨"fw.elf", some "out/./fw.bin", true, none, none, "info"⟩ := rfl
  have unfiltered : Arguments.parse ["-s", "fw.elf", "--log-level", "a=b"]
      = .ok ⟨"fw.elf", none, true, none, none, "a=b"⟩ := rfl
  have query : Arguments.parse ["-s", "fw.elf", "--addr2line", "0"]
      = .ok ⟨"fw.elf", none, true, some 0, none, "info"⟩ := rfl
  have filter : LogFilter.check "info" = .ok () := by rfl
  have refusal : LogFilter.check "a=b" ≠ .ok () := by decide
  have opened : Directory.openFile sampleFiles "fw.elf" = .contents sampleImage := by rfl
  have place : Directory.target sampleFiles "out/./fw.bin" = .vacant "out/fw.bin" := by decide +kernel
  have holds : (Directory.target sampleFiles "out/./fw.bin").Holds "out/fw.bin" := by
    rw [place]
    exact .vacant
  have sizes : (Elf.Image.parse sampleImage).map
      (fun image => (Conversion.loaded image).map (·.1.header.size.toNat)) = .ok [3] := rfl
  cases read : Elf.Image.parse sampleImage with
  | error fault => rw [read] at sizes; cases sizes
  | ok image =>
      rw [read] at sizes
      have sizes : (Conversion.loaded image).map (·.1.header.size.toNat) = [3] := Except.ok.inj sizes
      obtain ⟨data, written⟩ := (Conversion.serialize_convert_iff read Target.teak true).mpr
        (.inr (by rw [sizes]; decide))
      have converts : Converts ["-s", "fw.elf", "-o", "out/./fw.bin"] sampleFiles
          ⟨"fw.elf", some "out/./fw.bin", true, none, none, "info"⟩ data :=
        ⟨accepted, ⟨rfl, rfl⟩, filter, sampleImage, image, opened, read, written⟩
      obtain ⟨-, -, -, after, -⟩ := run_writes ["-s", "fw.elf", "-o", "out/./fw.bin"] sampleFiles
      obtain ⟨found, others⟩ := after _ data _ converts holds
      obtain ⟨-, -, -, -, refused⟩ := run_writes ["-s", "fw.elf", "--log-level", "a=b"] sampleFiles
      obtain ⟨-, -, -, -, asked⟩ := run_writes ["-s", "fw.elf", "--addr2line", "0"] sampleFiles
      refine ⟨data, converts.writes_eq, found, others "out/fw.bin", others "fw.elf",
        refused fun other _ _ converts => ?_, asked fun other _ _ converts => ?_⟩
      · cases unfiltered.symm.trans converts.accepted
        exact absurd converts.filter refusal
      · cases query.symm.trans converts.accepted
        cases converts.unasked.1

end DspFirmware.CommandLine
