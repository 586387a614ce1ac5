import EdgePacer.L7.Record
import EdgePacer.Lib.InPlace

/-!
# The span hierarchy of a batch

The spans of a flush are put into a hierarchy in place: a client span adopts the tightest server
span around it on its thread as its parent, a server span adopts the tightest client span around it
on the other end of its connection, and trace ids are then copied from parents to children until
nothing changes. A span that came with a context from the wire is never changed. The last loop need
not end, so that it takes the number of sweeps it may make. Window arithmetic wraps, as in a release
build.
-/

namespace EdgePacer.L7

open Lib

inductive SpanKind where
  | unspecified
  | internal
  | server
  | client
  | producer
  | consumer
  deriving DecidableEq, Repr

/-- What a span is reported under. -/
structure SpanContext where
  serviceName : String
  pid : UInt32
  cgroupId : UInt64
  (traceId spanId : Bytes)
  peer : Option String
  deriving DecidableEq

/-- The ends of a connection, as the capturing process sees them. -/
structure ConnEndpoints where
  (localEnd remoteEnd : String)
  deriving DecidableEq

/-- A span that waits to be flushed. -/
structure LocalSpan where
  record : L7Record
  ctx : SpanContext
  kind : Option SpanKind
  tid : UInt32
  conn : Option ConnEndpoints
  deriving DecidableEq

/-! ## Adoption -/

/-- When the request came in, and when its response went out. -/
def window (record : L7Record) : Int64 × Int64 :=
  (record.startUnixNano, record.startUnixNano + record.durationNano)

/-- Whether the first record's window is inside the second's, the ends included. -/
def nested (inner outer : L7Record) : Bool :=
  !((window inner).1 < (window outer).1 || (window inner).2 > (window outer).2)

def width (record : L7Record) : Int64 := (window record).2 - (window record).1

/-- The best candidate so far with its width, once entry `j` has been looked at: a later candidate
has to be strictly tighter. -/
def tighter (fits : Nat → LocalSpan → Bool) (j : Nat) (span : LocalSpan)
    (best : Option (Nat × Int64)) : Option (Nat × Int64) :=
  if fits j span then
    match best with
    | none => some (j, width span.record)
    | some (_, w) => if width span.record < w then some (j, width span.record) else best
  else best

def tightestFrom (fits : Nat → LocalSpan → Bool) :
    List LocalSpan → Nat → Option (Nat × Int64) → Option (Nat × Int64)
  | [], _, best => best
  | span :: rest, j, best => tightestFrom fits rest (j + 1) (tighter fits j span best)

/-- The tightest of the entries that fit. -/
def tightest (fits : Nat → LocalSpan → Bool) (entries : List LocalSpan) : Option Nat :=
  (tightestFrom fits entries 0 none).map Prod.fst

/-- The trace flags and state that a span hands down; without a context they are the defaults. -/
def LocalSpan.inherited (span : LocalSpan) : UInt8 × String :=
  match span.record.propagated with
  | some context => (context.traceFlags, context.traceState)
  | none => (0x01, "")

/-- The child with its parent's trace; malformed ids never parent. -/
def adopt (child parent : LocalSpan) : Option LocalSpan := do
  let traceId ← tryFrom 16 parent.ctx.traceId
  let parentSpanId ← tryFrom 8 parent.ctx.spanId
  return { child with
    ctx := { child.ctx with traceId := traceId.1 }
    record := { child.record with
      propagated := some
        { traceId := traceId
          parentSpanId := parentSpanId
          traceFlags := parent.inherited.1
          traceState := parent.inherited.2 } } }

/-- A turn of an adoption pass: a bare span of the kind adopts the tightest of the others that
fit. -/
def adopted (kind : SpanKind) (fits : LocalSpan → LocalSpan → Bool) (entries : List LocalSpan)
    (i : Nat) (span : LocalSpan) : Option LocalSpan :=
  if span.kind ≠ some kind || span.record.propagated.isSome then none
  else do
    let j ← tightest (fun j other => j != i && fits span other) entries
    let parent ← entries[j]?
    adopt span parent

/-- A server span on the client's thread, around it. -/
def servesClient (client server : LocalSpan) : Bool :=
  server.kind = some .server && server.ctx.pid = client.ctx.pid && server.tid = client.tid &&
    nested client.record server.record

/-- A client span on the other end of the server's connection, around it. -/
def callsServer (server client : LocalSpan) : Bool :=
  client.kind = some .client &&
    (match server.conn, client.conn with
      | some serverConn, some clientConn =>
          clientConn.localEnd = serverConn.remoteEnd && clientConn.remoteEnd = serverConn.localEnd
      | _, _ => false) &&
    nested server.record client.record

def assignLocalParents (entries : List LocalSpan) : List LocalSpan :=
  (pass (adopted .client servesClient) entries).1

def linkCrossProcess (entries : List LocalSpan) : List LocalSpan :=
  (pass (adopted .server callsServer) entries).1

/-! ## Trace refresh -/

/-- A turn of the refresh: the trace id of the span that the parent id names is taken over. -/
def refreshed (wireDerived : List Bool) (entries : List LocalSpan) (i : Nat) (span : LocalSpan) :
    Option LocalSpan :=
  if wireDerived.getD i false then none
  else do
    let context ← span.record.propagated
    let parent ← entries.find? fun e => e.ctx.spanId = context.parentSpanId.1
    if span.ctx.traceId = parent.ctx.traceId then none
    else
      let context := match tryFrom 16 parent.ctx.traceId with
        | some traceId => { context with traceId := traceId }
        | none => context
      return { span with
        ctx := { span.ctx with traceId := parent.ctx.traceId }
        record := { span.record with propagated := some context } }

/-- Sweeps until one changes nothing. -/
def refreshTraces (fuel : Nat) (entries : List LocalSpan) (wireDerived : List Bool) :
    Option (List LocalSpan) :=
  passes (refreshed wireDerived) fuel entries

/-- The hierarchy of a batch, if the refresh ends within the given number of sweeps. -/
def assignBatchHierarchy (fuel : Nat) (entries : List LocalSpan) : Option (List LocalSpan) :=
  let wireDerived := entries.map fun e => e.record.propagated.isSome
  refreshTraces fuel (linkCrossProcess (assignLocalParents entries)) wireDerived

end EdgePacer.L7
