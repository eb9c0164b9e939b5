import ServingPlane.Numeric.Notation
import ServingPlane.Text.Blank

/-! # GPU discovery

    The indices of the machine's GPUs, as its management tool lists them:
    one index a line.  Lines that hold anything else are passed over. -/

namespace ServingPlane.GpuDiscovery

open Numeric

/-- How the management tool ended. -/
inductive ToolOutcome where
  /-- It could not be started. -/
  | notStarted (reason : String)
  | failed (stderr : String)
  | listed (stdout : String)
  deriving DecidableEq, Repr

/-- The command that lists the indices. -/
def command : List String :=
  ["nvidia-smi", "--query-gpu=index", "--format=csv,noheader,nounits"]

/-- The index on a line, with white space around it. -/
def indexOfLine? (line : List Char) : Option UInt32 :=
  (readNatural? UInt32.size (Text.trimBlanks line)).map UInt32.ofNat

/-- The indices in a text, in line order. -/
def indicesOf (text : String) : List UInt32 := (Text.lines text.toList).filterMap indexOfLine?

/-- The indices that the tool lists, or why there are none. -/
def discover : ToolOutcome → Except String (List UInt32)
  | .notStarted reason => .error reason
  | .failed stderr => .error (Text.trim stderr)
  | .listed stdout => .ok (indicesOf stdout)

end ServingPlane.GpuDiscovery
