import EdgePacer.Text
import Mathlib.Algebra.Group.Int.Defs

/-!
# Request records

The vocabulary of the protocol parsers: directions, protocols, and the record of one request with
its response. A request may carry the trace context of its caller in a `traceparent` header, whose
strict form `parseTraceparent` accepts. Observation times are 64-bit signed nanoseconds.
-/

namespace EdgePacer.L7

/-- Direction of a captured segment, as the monitored server sees it. -/
inductive Direction where
  | inbound
  | outbound
  deriving DecidableEq, Repr

def Direction.opposite : Direction → Direction
  | .inbound => .outbound
  | .outbound => .inbound

inductive Protocol where
  | http1 | http2 | redis | dns | postgres | mysql | mongodb | kafka | cassandra | nats | amqp
  | memcached | smtp | mqtt | pulsar | clickhouse | tds | amqp1 | unknown
  deriving DecidableEq, Repr

/-- A byte array of fixed length (`[u8; n]`). -/
abbrev ByteArr (n : Nat) := { bytes : Bytes // bytes.length = n }

/-- `<[u8; n]>::try_from` on a byte vector. -/
def tryFrom (n : Nat) (bytes : Bytes) : Option (ByteArr n) :=
  if h : bytes.length = n then some ⟨bytes, h⟩ else none

theorem tryFrom_eq_some {n : Nat} {bytes : Bytes} {arr : ByteArr n}
    (h : tryFrom n bytes = some arr) : arr.1 = bytes := by
  rw [tryFrom] at h
  split at h
  · cases h
    rfl
  · cases h

/-! ## Text in headers -/

/-- The bytes of an ASCII literal. -/
def ascii (s : String) : Bytes := s.toList.map fun c => UInt8.ofNat c.toNat

/-- `std::str::from_utf8(..).ok()`. -/
def fromUtf8 (bytes : Bytes) : Option String := String.fromUTF8? ⟨bytes.toArray⟩

/-- The number that a nonempty row of decimal digits stands for. -/
def decimal? (digits : List Char) : Option Nat :=
  if digits.isEmpty || !digits.all Char.isDigit then none
  else some (digits.foldl (fun n c => 10 * n + (c.toNat - '0'.toNat)) 0)

/-- `str::parse` for an unsigned type of `width` bits. -/
def parseUnsigned (width : Nat) (s : String) : Option Nat :=
  let digits := match s.toList with
    | '+' :: rest => rest
    | cs => cs
  (decimal? digits).filter (· < 2 ^ width)

/-- `str::parse` for a signed type of `width` bits. -/
def parseSigned (width : Nat) (s : String) : Option Int :=
  let value : Option Int := match s.toList with
    | '+' :: rest => (decimal? rest).map Int.ofNat
    | '-' :: rest => (decimal? rest).map fun n => -Int.ofNat n
    | cs => (decimal? cs).map Int.ofNat
  value.filter fun n => -2 ^ (width - 1) ≤ n && n < 2 ^ (width - 1)

/-- `eq_ignore_ascii_case`. -/
def eqIgnoreAsciiCase (a b : String) : Bool :=
  a.toList.map Char.toLower == b.toList.map Char.toLower

/-! ## Trace context -/

/-- Trace context of an instrumented caller. -/
structure PropagatedContext where
  traceId : ByteArr 16
  parentSpanId : ByteArr 8
  traceFlags : UInt8
  traceState : String
  deriving DecidableEq

/-- The value of a lowercase hexadecimal digit. -/
def hexDigit? (c : Char) : Option Nat :=
  if '0' ≤ c ∧ c ≤ '9' then some (c.toNat - '0'.toNat)
  else if 'a' ≤ c ∧ c ≤ 'f' then some (c.toNat - 'a'.toNat + 10)
  else none

def hexBytes? : List Char → Option Bytes
  | [] => some []
  | [_] => none
  | hi :: lo :: rest => do
      let high ← hexDigit? hi
      let low ← hexDigit? lo
      let bytes ← hexBytes? rest
      return UInt8.ofNat (16 * high + low) :: bytes

/-- Exactly `n` bytes from `2 * n` lowercase hexadecimal digits. -/
def lowercaseHexBytes (n : Nat) (s : List Char) : Option (ByteArr n) :=
  (hexBytes? s).bind (tryFrom n)

/-- The version-00 form of a `traceparent` header; all-zero ids are refused. -/
def parseTraceparent (value : String) : Option PropagatedContext :=
  match value.toList.splitOn '-' with
  | [version, traceHex, parentHex, flagsHex] =>
      if version ≠ ['0', '0'] then none
      else do
        let traceId ← lowercaseHexBytes 16 traceHex
        let parentSpanId ← lowercaseHexBytes 8 parentHex
        let flags ← lowercaseHexBytes 1 flagsHex
        let traceFlags ← flags.1.head?
        if traceId.1 = List.replicate 16 0 ∨ parentSpanId.1 = List.replicate 8 0 then none
        else some ⟨traceId, parentSpanId, traceFlags, ""⟩
  | _ => none

/-! ## Records -/

/-- One request with its response. -/
structure L7Record where
  protocol : Protocol
  operation : String
  statusCode : Nat
  error : Bool
  (startUnixNano durationNano : Int64)
  attributes : List (String × String)
  propagated : Option PropagatedContext
  deriving DecidableEq

/-- `i64::saturating_sub`. -/
def saturatingSub (a b : Int64) : Int64 :=
  Int64.ofInt (max Int64.minValue.toInt (min Int64.maxValue.toInt (a.toInt - b.toInt)))

/-- The time from request to response, never negative. -/
def latency (start stop : Int64) : Int64 := max (saturatingSub stop start) 0

/-- A record without its observation times. -/
def L7Record.untimed (r : L7Record) : L7Record := { r with startUnixNano := 0, durationNano := 0 }

end EdgePacer.L7
