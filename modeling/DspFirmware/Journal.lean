import DspFirmware.Text.Numeral

/-!
What the library has to tell about its work, beside the answer.

Events are computed by functions of their own from the same inputs as the answers, so that no answer
depends on them.
-/

namespace DspFirmware

inductive Level where
  | trace
  | debug
  | warning
  deriving DecidableEq, Repr

structure Event where
  level : Level
  text : String
  deriving DecidableEq, Repr

/-- Remarks in the order in which they arise. -/
abbrev Journal := List Event

end DspFirmware
