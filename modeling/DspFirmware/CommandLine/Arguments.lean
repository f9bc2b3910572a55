import DspFirmware.Text.Blank
import DspFirmware.Text.Numeral
import DspFirmware.Text.Path

/-!
The arguments of the program.

Arguments are read from left to right. A value that is an argument of its own stays pending until
the next argument has been recognised, so that an unknown argument is reported in front of a bad
value just before it; a value attached to its option by an equals sign, or to a short option
directly, is looked at on the spot. That the input is missing is reported last.
-/

namespace DspFirmware.CommandLine

open Text

/-- Why a list of arguments asks for no work. -/
inductive UsageError where
  | displayHelp
  | displayVersion
  /-- An option or flag that may be given once is given again. -/
  | argumentConflict
  | unknownArgument
  /-- A value is missing, or a path is empty. -/
  | invalidValue
  /-- A value has the wrong form. -/
  | valueValidation (reason : String)
  /-- A flag comes with a value. -/
  | tooManyValues
  | missingRequiredArgument
  deriving DecidableEq, Repr

structure SourceLine where
  file : String
  line : UInt32
  deriving DecidableEq, Repr

structure Config where
  input : String
  /-- Where the container goes, if not next to the input. -/
  output : Option String
  syncLoad : Bool
  /-- The address whose source position is asked for. -/
  addressQuery : Option UInt32
  /-- The source line whose address is asked for. -/
  lineQuery : Option SourceLine
  logLevel : String
  deriving DecidableEq, Repr

namespace Config

def containerExtension : List Char := ['c', 'd', 'c']

def defaultLogLevel : String := "info"

def outputPath (config : Config) : String :=
  config.output.getD (String.ofList (Path.withExtension config.input.toList containerExtension))

/-- Whether a question takes the place of the conversion. -/
def isQuery (config : Config) : Bool := config.addressQuery.isSome || config.lineQuery.isSome

end Config

/-- Reads an address: a 32-bit number between white space, hexadecimal after the mark `0x` or `0X`,
else decimal. The reason of a failure quotes the whole text. -/
def readAddress (text : String) : Except String UInt32 :=
  let failure (form : String) (defect : Numeral.Defect) : String :=
    "invalid " ++ form ++ " value '" ++ text ++ "': " ++ defect.message
  match trim text.toList with
  | '0' :: 'x' :: digits => (Numeral.readUInt32 16 digits).mapError (failure "hex")
  | '0' :: 'X' :: digits => (Numeral.readUInt32 16 digits).mapError (failure "hex")
  | digits => (Numeral.readUInt32 10 digits).mapError (failure "decimal")

/-- Cuts a text at its last colon. -/
def cutAtLastColon (text : List Char) : Option (List Char × List Char) :=
  match text.reverse.dropWhile (· != ':') with
  | [] => none
  | _ :: before => some (before.reverse, (text.reverse.takeWhile (· != ':')).reverse)

/-- Reads a source line: a file name, a colon and a decimal number. The name may hold colons. -/
def readSourceLine (text : String) : Except String SourceLine :=
  match cutAtLastColon text.toList with
  | none => .error ("expected FILE:LINE, got '" ++ text ++ "'")
  | some (file, number) =>
      if file.isEmpty then .error ("missing file name in '" ++ text ++ "'")
      else
        match Numeral.readUInt32 10 number with
        | .ok line => .ok ⟨String.ofList file, line⟩
        | .error defect =>
            .error ("invalid line number in '" ++ text ++ "': " ++ defect.message)

namespace Arguments

inductive Slot where
  | input
  | output
  | addressQuery
  | lineQuery
  | logLevel
  deriving DecidableEq, Repr

/-- A value that has not been looked at, or is still to come. -/
structure Pending where
  slot : Slot
  value : Option String
  deriving DecidableEq, Repr

/-- The configuration as far as it is known. -/
structure Draft where
  input : Option String := none
  output : Option String := none
  syncLoad : Bool := false
  addressQuery : Option UInt32 := none
  lineQuery : Option SourceLine := none
  logLevel : Option String := none
  pending : Option Pending := none
  /-- Whether only positional arguments follow. -/
  optionsEnded : Bool := false
  deriving DecidableEq, Repr

namespace Draft

def filled (draft : Draft) : Slot → Bool
  | .input => draft.input.isSome
  | .output => draft.output.isSome
  | .addressQuery => draft.addressQuery.isSome
  | .lineQuery => draft.lineQuery.isSome
  | .logLevel => draft.logLevel.isSome

/-- A path has at least one character. -/
def readPath (text : String) : Except UsageError String :=
  if text.isEmpty then .error .invalidValue else .ok text

def fill (draft : Draft) (slot : Slot) (text : String) : Except UsageError Draft :=
  match slot with
  | .input => do return { draft with input := some (← readPath text) }
  | .output => do return { draft with output := some (← readPath text) }
  | .addressQuery =>
      match readAddress text with
      | .ok address => .ok { draft with addressQuery := some address }
      | .error reason => .error (.valueValidation reason)
  | .lineQuery =>
      match readSourceLine text with
      | .ok line => .ok { draft with lineQuery := some line }
      | .error reason => .error (.valueValidation reason)
  | .logLevel => .ok { draft with logLevel := some text }

/-- Gives a slot its value. A missing value is reported first, then a second value for the slot,
then a bad value. -/
def assign (draft : Draft) (slot : Slot) (value : Option String) : Except UsageError Draft :=
  match value with
  | none => .error .invalidValue
  | some text => if draft.filled slot then .error .argumentConflict else draft.fill slot text

def settle (draft : Draft) : Except UsageError Draft :=
  match draft.pending with
  | none => .ok draft
  | some pending => { draft with pending := none }.assign pending.slot pending.value

/-- Takes an option that needs a value, which is attached or still to come. -/
def takeOption (draft : Draft) (slot : Slot) (attached : Option String) :
    Except UsageError Draft := do
  let settled ← draft.settle
  match attached with
  | some text => settled.assign slot (some text)
  | none => return { settled with pending := some ⟨slot, none⟩ }

def takeSyncLoad (draft : Draft) : Except UsageError Draft := do
  let settled ← draft.settle
  if settled.syncLoad then
    throw .argumentConflict
  return { settled with syncLoad := true }

/-- Takes a request for a text of the program's own. -/
def takeRequest (draft : Draft) (request : UsageError) : Except UsageError Draft := do
  let _ ← draft.settle
  throw request

/-- Takes an argument without a dash. Only the input is one. -/
def takePositional (draft : Draft) (text : String) : Except UsageError Draft :=
  if draft.input.isSome ∨ draft.pending.any (·.slot = .input) then .error .unknownArgument
  else do
    let settled ← draft.settle
    return { settled with pending := some ⟨.input, some text⟩ }

/-- Takes a value for the option before it, or else a positional argument. -/
def takeWord (draft : Draft) (text : String) : Except UsageError Draft :=
  match draft.pending with
  | some ⟨slot, none⟩ => .ok { draft with pending := some ⟨slot, some text⟩ }
  | _ => draft.takePositional text

/-- Takes an argument with two dashes, given by what follows them. -/
def takeLong (draft : Draft) (name : String) (attached : Option String) :
    Except UsageError Draft :=
  let flag (take : Except UsageError Draft) : Except UsageError Draft :=
    if attached.isSome then .error .tooManyValues else take
  match name with
  | "output" => draft.takeOption .output attached
  | "addr2line" => draft.takeOption .addressQuery attached
  | "line2addr" => draft.takeOption .lineQuery attached
  | "log-level" => draft.takeOption .logLevel attached
  | "sync-load" => flag draft.takeSyncLoad
  | "help" => flag (draft.takeRequest .displayHelp)
  | "version" => flag (draft.takeRequest .displayVersion)
  | _ => .error .unknownArgument

/-- What is attached to a short option: the rest of its argument, without an equals sign in
front. -/
def attachedValue : List Char → Option String
  | [] => none
  | '=' :: text => some (String.ofList text)
  | text => some (String.ofList text)

/-- Takes the short flags and options of one argument. An option takes the rest as its value. -/
def takeShort (draft : Draft) : List Char → Except UsageError Draft
  | [] => .ok draft
  | 's' :: others => do (← draft.takeSyncLoad).takeShort others
  | 'h' :: _ => draft.takeRequest .displayHelp
  | 'V' :: _ => draft.takeRequest .displayVersion
  | 'o' :: rest => draft.takeOption .output (attachedValue rest)
  | _ => .error .unknownArgument

/-- The text behind the first equals sign. -/
def afterEquals (text : List Char) : Option String :=
  match text.dropWhile (· != '=') with
  | [] => none
  | _ :: value => some (String.ofList value)

def take (draft : Draft) (argument : String) : Except UsageError Draft :=
  if draft.optionsEnded then draft.takePositional argument
  else
    match argument.toList with
    | ['-', '-'] => .ok { draft with optionsEnded := true }
    | '-' :: '-' :: text =>
        draft.takeLong (String.ofList (text.takeWhile (· != '='))) (afterEquals text)
    | '-' :: c :: others => draft.takeShort (c :: others)
    | _ => draft.takeWord argument

/-- The configuration, when all arguments have been taken. -/
def finish (draft : Draft) : Except UsageError Config := do
  let settled ← draft.settle
  match settled.input with
  | none => throw .missingRequiredArgument
  | some input =>
      return {
        input
        output := settled.output
        syncLoad := settled.syncLoad
        addressQuery := settled.addressQuery
        lineQuery := settled.lineQuery
        logLevel := settled.logLevel.getD Config.defaultLogLevel }

end Draft

def parse (arguments : List String) : Except UsageError Config := do
  let draft ← arguments.foldlM Draft.take {}
  draft.finish

end Arguments

end DspFirmware.CommandLine
