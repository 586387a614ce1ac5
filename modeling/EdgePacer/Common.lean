import Mathlib.Data.List.Basic
import Mathlib.Algebra.GroupWithZero.Nat

/-!
# Shared vocabulary

Byte strings, container output streams and the blank-line test, which every later module uses.
Byte strings are lists: the code never depends on their layout.
-/

namespace EdgePacer

/-- A byte string (`Vec<u8>`). -/
abbrev Bytes := List UInt8

/-- A timestamp in nanoseconds (`i64`), as its two's-complement bit pattern. -/
abbrev TimestampNs := BitVec 64

/-- Which output stream a container record came from. `unspecified` is the tag of a plain file,
of journald, and of a record whose runtime left the tag unset. -/
inductive LogStream where
  | stdout
  | stderr
  | unspecified
  deriving DecidableEq, Repr

/-- The stream named by a runtime's tag. -/
def LogStream.fromTag (tag : String) : LogStream :=
  if tag = "stdout" then .stdout else if tag = "stderr" then .stderr else .unspecified

/-- A persisted read position of a file source. -/
structure Checkpoint where
  (offset inode : Nat)
  deriving DecidableEq, Repr

/-- ASCII whitespace: space, tab, line feed, form feed and carriage return. -/
def isAsciiWhitespace (b : UInt8) : Bool :=
  b == 0x20 || b == 0x09 || b == 0x0A || b == 0x0C || b == 0x0D

/-- A line that is empty once ASCII whitespace is trimmed from both ends. -/
def isBlankLogLine (line : Bytes) : Bool := line.all isAsciiWhitespace

end EdgePacer
