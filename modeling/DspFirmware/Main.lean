import DspFirmware.CommandLine

/-!
The program: the stages of a run, with the files and the terminal of the system between them.
-/

namespace DspFirmware.CommandLine

def usage : String :=
  "Usage: elf2dsp [OPTIONS] <INPUT>\n\nOptions:\n"
    ++ "  -o, --output <OUTPUT>        Output file (default: the input with extension cdc)\n"
    ++ "  -s, --sync-load              Set the sync-load flag in the container header\n"
    ++ "      --addr2line <ADDR>       Print the source location of an address\n"
    ++ "      --line2addr <FILE:LINE>  Print the address of a source location\n"
    ++ "      --log-level <LOG_LEVEL>  Set the logging level\n"
    ++ "  -h, --help                   Print help\n"
    ++ "  -V, --version                Print version\n"

/-- The number and the wording that the system gives a failure. -/
def systemError : IO.Error → UInt32 × String
  | .alreadyExists _ code details => (code, details)
  | .otherError code details => (code, details)
  | .resourceBusy code details => (code, details)
  | .resourceVanished code details => (code, details)
  | .unsupportedOperation code details => (code, details)
  | .hardwareFault code details => (code, details)
  | .unsatisfiedConstraints code details => (code, details)
  | .illegalOperation code details => (code, details)
  | .protocolError code details => (code, details)
  | .timeExpired code details => (code, details)
  | .interrupted _ code details => (code, details)
  | .noFileOrDirectory _ code details => (code, details)
  | .invalidArgument _ code details => (code, details)
  | .permissionDenied _ code details => (code, details)
  | .resourceExhausted _ code details => (code, details)
  | .inappropriateType _ code details => (code, details)
  | .noSuchThing _ code details => (code, details)
  | .unexpectedEof => (0, "unexpected end of file")
  | .userError details => (0, details)

/-- The wording of a failure, with its number. -/
def reason (error : IO.Error) : String :=
  let (code, details) := systemError error
  details ++ " (os error " ++ Text.decimal code.toNat ++ ")"

/-- Reads the input. What opens as a directory cannot be mapped. -/
def readInput (path : String) : IO Opened := do
  try
    return .contents (← IO.FS.readBinFile path).toList
  catch error =>
    if (systemError error).1 = 21 then
      return .notMapped Directory.noSuchDevice
    else return .notOpened (reason error)

def finish (outcome : Outcome) : IO UInt32 := do
  IO.print outcome.stdout
  IO.eprint outcome.report
  return UInt32.ofNat outcome.exitCode

def finishUsage (error : UsageError) : IO UInt32 := do
  match error with
  | .displayVersion => finish (.ofUsage error)
  | .displayHelp => finish { Outcome.ofUsage error with stdout := usage }
  | .valueValidation problem =>
      IO.eprint ("error: " ++ problem ++ "\n\n" ++ usage)
      finish (.ofUsage error)
  | _ =>
      IO.eprint usage
      finish (.ofUsage error)

end DspFirmware.CommandLine

open DspFirmware CommandLine in
def main (arguments : List String) : IO UInt32 := do
  match Arguments.parse arguments with
  | .error error => finishUsage error
  | .ok config =>
      match work config (← readInput config.input) with
      | .finished outcome => finish outcome
      | .write path data summary =>
          try
            IO.FS.writeBinFile path (ByteArray.mk data.toArray)
            finish (.success summary)
          catch error => finish (writeFailure path (reason error))
