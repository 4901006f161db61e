import GoCheck.Text.Basic

/-!
# Configuration

What a check may be asked to do beside checking: to write a trace, and to report unused variables.
-/

namespace GoCheck

structure Config where
  /-- Log the expressions and statements that are checked. -/
  trace : Bool := false
  /-- Report local variables that are declared and not used. -/
  reportUnused : Bool := true
  deriving DecidableEq, Repr, Inhabited

namespace Config

/-- A text turns tracing on unless it is blank or a zero. -/
def traceEnabled (value : String) : Bool :=
  let value := Text.trimWhiteSpace value
  !value.isEmpty && value ≠ "0"

def ofTraceSetting (value : Option String) : Config :=
  { trace := value.any traceEnabled }

end Config

end GoCheck
