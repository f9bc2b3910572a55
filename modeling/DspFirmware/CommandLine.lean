import DspFirmware.CommandLine.Arguments
import DspFirmware.CommandLine.Directory
import DspFirmware.CommandLine.LogFilter
import DspFirmware.Conversion
import DspFirmware.LineTable.Section
import DspFirmware.Text.Quoted
import DspFirmware.Text.Utf8

/-!
A whole run of the program, from its arguments to its outcome.

A run has three stages with file accesses between them: reading the arguments, working on the image,
and reporting how writing went. Each stage is a function, and `run` puts them together over the files
of a directory. A log filter that is refused ends the work before the image is looked at, and only a
conversion that has succeeded completely leads to a write.
-/

namespace DspFirmware.CommandLine

/-- How a run ends, as far as the terminal shows it. -/
structure Outcome where
  exitCode : Nat
  /-- What is printed, with a container in front of it that is written there too. -/
  stdout : String
  /-- The report of a failure. -/
  report : String
  deriving DecidableEq, Repr

namespace Outcome

def success (stdout : String) : Outcome := ⟨0, stdout, ""⟩

/-- A line of a report behind its heading, and the lines after it, each behind as many spaces. -/
def entry (heading text : String) : String :=
  let margin := List.replicate heading.length ' '
  "\n" ++ heading
    ++ String.ofList (text.toList.flatMap fun c => if c = '\n' then '\n' :: margin else [c])

/-- Causes in a row, each behind its number. -/
def numbered (first : Nat) : List String → String
  | [] => ""
  | cause :: rest =>
      entry (String.ofList ((Nat.toDigits 10 first).leftpad 5 ' ') ++ ": ") cause
        ++ numbered (first + 1) rest

/-- The part of a report that lists causes, the outermost first. A single cause has no number. -/
def listCauses : List String → String
  | [] => ""
  | [cause] => "\n\nCaused by:" ++ entry "    " cause
  | causes => "\n\nCaused by:" ++ numbered 0 causes

def failure (stdout problem : String) (causes : List String) : Outcome :=
  ⟨1, stdout, "Error: " ++ problem ++ listCauses causes ++ "\n"⟩

/-- A run that is broken off without a report. It shows what was printed before. -/
def aborted (stdout : String) : Outcome := ⟨101, stdout, ""⟩

/-- The outcome of arguments that ask for no work. Texts on usage are left to the terminal. -/
def ofUsage : UsageError → Outcome
  | .displayHelp => success ""
  | .displayVersion => success "elf2dsp 0.1.0\n"
  | _ => ⟨2, "", ""⟩

/-- The outcome of line programs that cannot be read, after what was printed before. -/
def ofDecodeError (stdout : String) : LineTable.DecodeError → Outcome
  | .fault cause => failure stdout "failed to decode .debug_line" [cause.message]
  | .advanceOverflow => aborted stdout

end Outcome

def addressLine (address : UInt32) (location : Option LineTable.Location) : String :=
  Text.hexadecimal address.toNat ++ ": " ++
    match location with
    | none => "??\n"
    | some found =>
        found.path ++ ":" ++ Text.decimal found.line.toNat ++ ":"
          ++ Text.decimal found.column.toNat ++ "\n"

def sourceLine (query : SourceLine) (address : Option UInt32) : String :=
  query.file ++ ":" ++ Text.decimal query.line.toNat ++ ": " ++
    match address with
    | none => "??\n"
    | some found => Text.hexadecimal found.toNat ++ "\n"

/-- The answer for the address that is asked for, if one is. -/
def answerAddress (data : Bytes) (query : Option UInt32) : Except LineTable.DecodeError String :=
  match query with
  | none => .ok ""
  | some address => addressLine address <$> LineTable.lookupAddress data address

/-- The answer for the source line that is asked for, if one is. -/
def answerLine (data : Bytes) (query : Option SourceLine) : Except LineTable.DecodeError String :=
  match query with
  | none => .ok ""
  | some line => sourceLine line <$> LineTable.lookupLocation data line.file line.line

/-- Answers the questions about an image, the one about an address first. -/
def answer (config : Config) (image : Elf.Image) : Outcome :=
  match image.sectionNamed? ".debug_line" with
  | none => .failure "" "input has no .debug_line section" []
  | some s =>
      match answerAddress s.data config.addressQuery with
      | .error error => .ofDecodeError "" error
      | .ok first =>
          match answerLine s.data config.lineQuery with
          | .error error => .ofDecodeError first error
          | .ok second => .success (first ++ second)

/-- What is left to do when the work on the image is done. -/
inductive Work where
  | finished (outcome : Outcome)
  /-- A container is to be written, and its success to be told. -/
  | write (path : String) (data : Bytes) (summary : String)
  deriving DecidableEq, Repr

/-- The line that tells of a written container. -/
def summary (container : Container) (size : Nat) (path : String) : String :=
  "Wrote " ++ Text.decimal container.segments.length ++ " segment(s), " ++ Text.decimal size
    ++ " bytes to " ++ path ++ "\n"

def convert (config : Config) (image : Elf.Image) : Work :=
  let container := Conversion.convert Target.teak config.syncLoad image
  match container.serialize with
  | .error fault =>
      .finished (.failure "" "failed to build DSP1 container" [fault.message])
  | .ok data => .write config.outputPath data (summary container data.length config.outputPath)

def workOn (config : Config) : Opened → Work
  | .notOpened reason => .finished (.failure "" ("failed to open " ++ config.input) [reason])
  | .notMapped reason => .finished (.failure "" reason [])
  | .contents data =>
      match Elf.Image.parse data with
      | .error fault =>
          .finished (.failure "" ("failed to parse " ++ config.input) [fault.message])
      | .ok image =>
          if config.isQuery then .finished (answer config image) else convert config image

/-- Works on the input, after a look at the log filter. -/
def work (config : Config) (input : Opened) : Work :=
  match LogFilter.check config.logLevel with
  | .error .splitCharacter => .finished (.aborted "")
  | .error refusal =>
      .finished
        (.failure "" ("invalid log level " ++ Text.quoted config.logLevel) refusal.causes)
  | .ok () => workOn config input

def writeFailure (path reason : String) : Outcome :=
  .failure "" ("failed to write " ++ path) [reason]

/-- Runs the program on the files of a directory. -/
def run (arguments : List String) (files : Directory) : Outcome × Directory :=
  match Arguments.parse arguments with
  | .error error => (.ofUsage error, files)
  | .ok config =>
      match work config (files.openFile config.input) with
      | .finished outcome => (outcome, files)
      | .write path data summary =>
          match files.writeFile path data with
          | .error reason => (writeFailure path reason, files)
          | .ok written => (.success (Text.ofUtf8 written.shown ++ summary), written.files)

end DspFirmware.CommandLine
