import EdgePacer.L7.Record
import EdgePacer.Lib.Framing

/-!
# HTTP/1.x

Request lines and response statuses are read from the heads of messages; bodies, as long as
`Content-Length` says, are passed over. Responses are paired with requests first in, first out.
The parser of heads (`httparse`) is a parameter. `Http1Parser` is the reassembly loop of
`Lib.Framing` at two directions: the lengths it advances by are machine words, so a
`Content-Length` near `2 ^ 64` can make a message of length zero, on which the loop does not return.
-/

namespace EdgePacer.L7

open Lib List Reassembly

/-! ## Direction buffers -/

/-- Captured bytes, and how many to drop before the next message can be parsed. -/
abbrev DirBuf := Reassembly Unit UInt8

inductive DirOp where
  | push (chunk : Bytes)
  | drainSkip

namespace DirBuf

def apply (b : DirBuf) : DirOp → DirBuf
  | .push chunk => b.push chunk
  | .drainSkip => b.drainSkip.2

def pushed (ops : List DirOp) : Bytes :=
  ops.flatMap fun
    | .push chunk => chunk
    | .drainSkip => []

/-- Of the bytes that came, all but the first `n` are left to parse. -/
structure Drops (b : DirBuf) (n : Nat) (came : Bytes) : Prop where
  rest : b.buf.drop b.skip = came.drop n
  missing : b.skip - b.buf.length = n - came.length

variable {b : DirBuf} {n : Nat} {came : Bytes}

theorem drainSkip_of_drops (h : Drops b n came) :
    b.drainSkip = (decide (n ≤ came.length), ⟨(), came.drop n, n - came.length⟩) := by
  have hmissing := h.missing
  rcases lt_or_ge b.buf.length b.skip with hshort | hlong
  · rw [drainSkip_of_short hshort, ← h.rest, ← hmissing, drop_eq_nil_of_le hshort.le,
      decide_eq_false (by omega)]
  · rw [drainSkip_of_long hlong, h.rest, ← hmissing, Nat.sub_eq_zero_of_le hlong,
      decide_eq_true (by omega)]

theorem drops_drop (n : Nat) (came : Bytes) : Drops ⟨(), came.drop n, n - came.length⟩ n came where
  rest := by
    rcases lt_or_ge came.length n with hshort | hlong
    · rw [drop_eq_nil_of_le hshort.le, drop_nil]
    · rw [Nat.sub_eq_zero_of_le hlong, drop_zero]
  missing := by
    simp only [length_drop]
    omega

theorem drops_foldl (h : Drops b n came) (ops : List DirOp) :
    Drops (ops.foldl apply b) n (came ++ pushed ops) := by
  induction ops generalizing b came with
  | nil => rwa [pushed, flatMap_nil, append_nil]
  | cons op ops ih =>
    cases op with
    | push chunk =>
      have hmissing := h.missing
      rw [pushed, flatMap_cons, ← append_assoc]
      refine ih ⟨?_, ?_⟩
      · rw [apply, push, drop_append, drop_append, h.rest, hmissing]
      · simp only [apply, push, length_append]
        omega
    | drainSkip =>
      refine ih ?_
      rw [apply, drainSkip_of_drops h]
      exact drops_drop n came

theorem drops_advance (b : DirBuf) (n : Nat) :
    Drops (advance { b with skip := 0 } n) n b.buf := by
  have hall := drops_drop n b.buf
  unfold advance
  split
  · next hle => rwa [Nat.sub_eq_zero_of_le hle] at hall
  · next hlt => rwa [drop_eq_nil_of_le (not_le.1 hlt).le] at hall

/-- **Skipped bytes.** However the bytes come, and however often the skip is drained in between,
exactly as many of the first bytes are dropped as there were to skip, or as the message that
`advance` was given has. -/
theorem drops_framed (b : DirBuf) (n : Nat) (ops : List DirOp) :
    (ops.foldl apply b).drainSkip = (decide (b.skip ≤ (b.buf ++ pushed ops).length),
      ⟨(), (b.buf ++ pushed ops).drop b.skip, b.skip - (b.buf ++ pushed ops).length⟩) ∧
    (ops.foldl apply (advance { b with skip := 0 } n)).drainSkip =
      (decide (n ≤ (b.buf ++ pushed ops).length),
        ⟨(), (b.buf ++ pushed ops).drop n, n - (b.buf ++ pushed ops).length⟩) :=
  ⟨drainSkip_of_drops (drops_foldl ⟨rfl, rfl⟩ ops),
    drainSkip_of_drops (drops_foldl (drops_advance b n) ops)⟩

end DirBuf

namespace Http1

/-! ## Heads -/

/-- A header field. -/
structure Header where
  name : String
  value : Bytes
  deriving DecidableEq

/-- The answer of `httparse` for a buffer. -/
inductive Status (α : Type) where
  | complete (headLen : Nat) (head : α)
  | incomplete
  | error
  deriving DecidableEq

/-- The fields of `httparse::Request`. -/
structure RequestFields where
  (method path : Option String)
  headers : List Header
  deriving DecidableEq

/-- The fields of `httparse::Response`. -/
structure ResponseFields where
  code : Option Nat
  headers : List Header
  deriving DecidableEq

/-- `httparse`, with room for 32 headers. -/
structure Httparse where
  request : Bytes → Status RequestFields
  response : Bytes → Status ResponseFields

structure RequestHead where
  (method path host : String)
  propagated : Option PropagatedContext
  deriving DecidableEq

/-- True if the buffer starts with a known method and a space. -/
def looksLikeRequest (buf : Bytes) : Bool :=
  ["GET ", "POST ", "PUT ", "DELETE ", "HEAD ", "OPTIONS ", "PATCH ", "TRACE ", "CONNECT "].any
    fun m => (ascii m).isPrefixOf buf

variable (headers : List Header)

/-- The text of the first header of a name. -/
def headerText (name : String) : Option String :=
  (headers.find? fun h => eqIgnoreAsciiCase h.name name).bind fun h => fromUtf8 h.value

def contentLength : Nat :=
  ((headerText headers "content-length").bind fun s => parseUnsigned 64 (Text.trim s)).getD 0

def host (headers : List Header) : String := ((headerText headers "host").map Text.trim).getD ""

/-- A valid `traceparent`, with the `tracestate` beside it. -/
def propagatedContext : Option PropagatedContext := do
  let ctx ← (headerText headers "traceparent").bind fun value => parseTraceparent (Text.trim value)
  match headerText headers "tracestate" with
  | some state => return { ctx with traceState := Text.trim state }
  | none => return ctx

/-- Head and body together, as a machine word. -/
def totalLen (headLen : Nat) (headers : List Header) : Nat :=
  (headLen + contentLength headers) % 2 ^ 64

section

variable (hp : Httparse)

def parseRequest (buf : Bytes) : Outcome Unit RequestHead :=
  match hp.request buf with
  | .complete headLen req =>
      let value : RequestHead :=
        { method := req.method.getD "", path := req.path.getD "", host := host req.headers,
          propagated := propagatedContext req.headers }
      .complete value (totalLen headLen req.headers) ()
  | .incomplete => .incomplete
  | .error => .invalid

def parseResponse (buf : Bytes) : Outcome Unit Nat :=
  match hp.response buf with
  | .complete headLen resp =>
      match resp.code with
      | some code => .complete code (totalLen headLen resp.headers) ()
      | none => .invalid
  | .incomplete => .incomplete
  | .error => .invalid

/-! ## Pairing -/

/-- Destination and target of a request; an empty host is left out. -/
def httpAttributes (head : RequestHead) : List (String × String) :=
  (if head.host.isEmpty then [] else [("http.host", head.host)]) ++ [("http.target", head.path)]

/-- A request awaiting its response. -/
structure Pending where
  head : RequestHead
  startUnixNano : Int64
  deriving DecidableEq

/-- Requests that wait, and finished records. -/
structure Http1Conn where
  pending : List Pending
  records : List L7Record
  deriving DecidableEq

/-- The record of a request answered with `status` at `ts`. -/
def record (req : Pending) (status : Nat) (ts : Int64) : L7Record :=
  { protocol := .http1
    attributes := httpAttributes req.head
    operation := req.head.method ++ " " ++ req.head.path
    statusCode := status
    error := 500 ≤ status
    startUnixNano := req.startUnixNano
    durationNano := latency req.startUnixNano ts
    propagated := req.head.propagated }

namespace Http1Conn

def new : Http1Conn := ⟨[], []⟩

def onRequest (conn : Http1Conn) (head : RequestHead) (ts : Int64) : Http1Conn :=
  { conn with pending := conn.pending ++ [⟨head, ts⟩] }

/-- A response answers the oldest request; without one it is dropped. -/
def onResponse (conn : Http1Conn) (status : Nat) (ts : Int64) : Http1Conn :=
  match conn.pending with
  | [] => conn
  | req :: rest => { pending := rest, records := conn.records ++ [record req status ts] }

end Http1Conn

/-! ## The parser -/

/-- What the head of a message says. -/
inductive Head where
  | request (head : RequestHead)
  | response (status : Nat)

/-- The parser without its buffers. -/
structure Core where
  conn : Http1Conn
  dead : Bool
  deriving DecidableEq

/-- `drain_inbound` and `drain_outbound`: requests come in and responses go out. -/
def framer : Framer Direction Unit UInt8 Head Int64 Core where
  next dir _ buf :=
    match dir with
    | .inbound => (parseRequest hp buf).map .request
    | .outbound => (parseResponse hp buf).map .response
  handle core _ head ts :=
    match head with
    | .request head => { core with conn := core.conn.onRequest head ts }
    | .response status => { core with conn := core.conn.onResponse status ts }
  fail core := { core with dead := true }
  stop core := core.dead
  stop_fail _ := rfl

/-- A buffer for each direction, and the pairing. -/
abbrev Http1Parser := Demux Direction Unit UInt8 Core

namespace Http1Parser

def new : Http1Parser := Framer.fresh (fun _ => ()) ⟨.new, false⟩

variable (parser : Http1Parser)

/-- `on_inbound` and `on_outbound`; `none` when the call does not return. -/
def onBytes (dir : Direction) (bytes : Bytes) (ts : Int64) : Option Http1Parser :=
  (framer hp).step parser (dir, bytes, ts)

def takeRecords : List L7Record × Http1Parser :=
  let core := { parser.core with conn := { parser.core.conn with records := [] } }
  (parser.core.conn.records, { parser with core := core })

def isDead : Bool := parser.core.dead

end Http1Parser

end

/-! ## Answers of `httparse` -/

section

variable {α : Type}

/-- The answer for a buffer by a table of heads: complete behind a head of the table, incomplete
within one. -/
def answer (table : List (Bytes × α)) (buf : Bytes) : Status α :=
  match table.find? fun e => e.1.isPrefixOf buf with
  | some e => .complete e.1.length e.2
  | none => if table.any fun e => buf.isPrefixOf e.1 then .incomplete else .error

theorem mem_of_answer {table : List (Bytes × α)} {buf : Bytes} {n : Nat} {head : α}
    (h : answer table buf = .complete n head) : ∃ e ∈ table, e.1.length = n := by
  unfold answer at h
  split at h
  · next e he =>
    cases h
    exact ⟨e, List.mem_of_find?_eq_some he, rfl⟩
  · split at h <;> cases h

end

/-- Request heads as `httparse` reads them. With its body the last one is `2 ^ 64` bytes long. -/
def requestHeads : List (Bytes × RequestFields) :=
  [(ascii "GET / HTTP/1.1\r\n\r\n", ⟨some "GET", some "/", []⟩),
    (ascii "PUT / HTTP/1.1\r\nContent-Length: 2\r\n\r\n",
      ⟨some "PUT", some "/", [⟨"Content-Length", ascii "2"⟩]⟩),
    (ascii "GET / HTTP/1.1\r\nContent-Length: 18446744073709551560\r\n\r\n",
      ⟨some "GET", some "/", [⟨"Content-Length", ascii "18446744073709551560"⟩]⟩)]

/-- Response heads as `httparse` reads them. -/
def responseHeads : List (Bytes × ResponseFields) :=
  [(ascii "HTTP/1.1 200 OK\r\n\r\n", ⟨some 200, []⟩),
    (ascii "HTTP/1.1 200 OK\r\ncontent-length: 1\r\n\r\n",
      ⟨some 200, [⟨"content-length", ascii "1"⟩]⟩)]

/-- `httparse` on these heads. -/
def tableHttparse : Httparse := ⟨answer requestHeads, answer responseHeads⟩

end Http1

end EdgePacer.L7
