import EdgePacer.L7.Http1
import EdgePacer.L7.Http2
import EdgePacer.Lib.Keyed

/-!
# Connections

Captured segments are sorted by connection identity. A tracker buffers both directions of its
connection until the protocol is recognised from the first bytes (or named by a port hint), then
feeds a parser, and is killed by bytes that no parser can make sense of or by a gap in the stream.
HTTP/1 and HTTP/2 are modelled; the other parsers and their detectors are parameters that always
return. A call into the HTTP/1 parser may not return, so that `none` stands for such a call here as
well.
-/

namespace EdgePacer.L7

open Lib

/-- The longest method token and its space. -/
def maxMethodPrefix : Nat := 8

def maxTrackedConns : Nat := 16384

/-- What tells connections apart. -/
structure CapturedConnectionIdentity where
  (captureGeneration policyGeneration scopeCgroupId cgroupId pid fd : Nat)
  deriving DecidableEq

/-- Bytes seen on a descriptor. -/
structure CapturedSegment where
  (captureGeneration policyGeneration pid tid cgroupId scopeCgroupId fd : Nat)
  direction : Direction
  timestampNano : Int64
  /-- Bytes are missing after these. -/
  streamGap : Bool
  bytes : Bytes
  deriving DecidableEq

def CapturedSegment.connectionIdentity (seg : CapturedSegment) : CapturedConnectionIdentity :=
  { captureGeneration := seg.captureGeneration
    policyGeneration := seg.policyGeneration
    scopeCgroupId := seg.scopeCgroupId
    cgroupId := seg.cgroupId
    pid := seg.pid
    fd := seg.fd }

/-! ## Parsers -/

/-- The protocols whose parsers are parameters. -/
inductive OtherKind where
  | amqp | cassandra | nats | redis | postgres | mysql | mongodb | dns | amqp1 | smtp | mqtt | tds
  | pulsar | kafka | memcached | clickhouse
  deriving DecidableEq

/-- The parsers that are not modelled, and the libraries that the modelled ones rest on. -/
structure Externals where
  httparse : Http1.Httparse
  codec : Http2.Codec
  State : OtherKind → Type
  fresh : (kind : OtherKind) → State kind
  onBytes : (kind : OtherKind) → State kind → Direction → Bytes → Int64 → State kind
  takeRecords : (kind : OtherKind) → State kind → List L7Record × State kind
  isDead : (kind : OtherKind) → State kind → Bool
  /-- The byte signature of a protocol (`detect_*`). -/
  detect : (kind : OtherKind) → Bytes → Option (State kind)
  /-- `redis::looks_like_request` and `nats::looks_like_request`. -/
  redisRequest : Bytes → Bool
  natsRequest : Bytes → Bool

section

variable (ext : Externals)

/-- A parser bound to a connection. -/
inductive Parser where
  | http1 (parser : Http1.Http1Parser)
  | http2 (parser : Http2.Http2Parser ext.codec)
  | other (kind : OtherKind) (state : ext.State kind)

variable {ext}

namespace Parser

def onBytes (p : Parser ext) (dir : Direction) (bytes : Bytes) (ts : Int64) : Option (Parser ext) :=
  match p with
  | .http1 parser => (parser.onBytes ext.httparse dir bytes ts).map .http1
  | .http2 parser => (parser.onBytes dir bytes ts).map .http2
  | .other kind state => some (.other kind (ext.onBytes kind state dir bytes ts))

def takeRecords : Parser ext → List L7Record × Parser ext
  | .http1 parser => (parser.takeRecords.1, .http1 parser.takeRecords.2)
  | .http2 parser => (parser.takeRecords.1, .http2 parser.takeRecords.2)
  | .other kind state =>
      ((ext.takeRecords kind state).1, .other kind (ext.takeRecords kind state).2)

def isDead : Parser ext → Bool
  | .http1 parser => parser.isDead
  | .http2 parser => parser.isDead
  | .other kind state => ext.isDead kind state

end Parser

/-! ## Detection -/

/-- The parser that a port hint names. -/
def parserForProtocol (key : String) : Option (Parser ext) :=
  let kind : Option OtherKind := match key with
    | "postgres" => some .postgres
    | "mysql" => some .mysql
    | "mongodb" => some .mongodb
    | "kafka" => some .kafka
    | "cassandra" => some .cassandra
    | "redis" => some .redis
    | "amqp" => some .amqp
    | "memcached" => some .memcached
    | "mqtt" => some .mqtt
    | "tds" => some .tds
    | "pulsar" => some .pulsar
    | "clickhouse" => some .clickhouse
    | "smtp" => some .smtp
    | _ => none
  kind.map fun kind => .other kind (ext.fresh kind)

/-- What the first bytes tell of the protocol. -/
inductive Detect (ext : Externals) where
  | parser (parser : Parser ext)
  | unknown
  | needMore

/-- The signatures that are parameters, in the order in which they are tried. -/
def detectOrder : List OtherKind :=
  [.amqp, .cassandra, .nats, .redis, .postgres, .mysql, .mongodb, .dns, .amqp1, .smtp, .mqtt, .tds,
    .pulsar, .kafka, .memcached]

def detectOther (bytes : Bytes) : Option (Parser ext) :=
  detectOrder.findSome? fun kind => (ext.detect kind bytes).map (.other kind)

/-- The protocol of a connection, from a hint or its first bytes. -/
def detect (inbound : Bytes) (hint : Option String) : Detect ext :=
  match hint.bind parserForProtocol with
  | some parser => .parser parser
  | none =>
      if Http1.looksLikeRequest inbound then .parser (.http1 .new)
      -- the preface is longer than a method token, so this comes before the cutoff below
      else if Http2.looksLikePrefacePrefix inbound then .needMore
      else if Http2.detectHttp2 inbound then .parser (.http2 (.new ext.codec))
      else
        match detectOther inbound with
        | some parser => .parser parser
        | none => if maxMethodPrefix ≤ inbound.length then .unknown else .needMore

/-- Whether the bytes begin a request of any protocol. -/
def looksLikeAnyRequest (ext : Externals) (bytes : Bytes) : Bool :=
  Http1.looksLikeRequest bytes || ext.redisRequest bytes || ext.natsRequest bytes ||
    Http2.detectHttp2 bytes ||
    [OtherKind.postgres, .mysql, .amqp, .cassandra, .mongodb, .dns, .kafka, .memcached, .amqp1,
      .smtp, .mqtt, .tds, .pulsar].any fun kind => (ext.detect kind bytes).isSome

/-! ## Trackers -/

/-- Which side of a connection the monitored process is. -/
inductive PeerRole where
  | server
  | client
  deriving DecidableEq

/-- One connection, before and after detection. -/
structure ConnTracker (ext : Externals) where
  parser : Option (Parser ext)
  dead : Bool
  (preInbound preOutbound : Bytes)
  byteRole : Option PeerRole

/-- What becomes of a tracker without a parser. -/
inductive Verdict (ext : Externals) where
  | bind (parser : Parser ext) (role : Option PeerRole) (flipped : Bool)
  | kill
  | wait

namespace ConnTracker

def new : ConnTracker ext := ⟨none, false, [], [], none⟩

/-- The state of every tracker that has been given up. -/
def killed : ConnTracker ext := ⟨none, true, [], [], none⟩

variable (t : ConnTracker ext) (dir : Direction)

/-- Requests come in: for a client, what it writes is the request. -/
def orient (flip : Bool) : Direction :=
  if flip || t.byteRole = some .client then dir.opposite else dir

/-- A dead tracker starts again with a request, when the descriptor is used again. -/
def revive (bytes : Bytes) (hint : Option String) : Option (ConnTracker ext) :=
  if t.dead then
    let hinted := (hint.filter fun _ => dir = .inbound).bind parserForProtocol
    if hinted.isSome || (hint.isNone && looksLikeAnyRequest ext bytes) then
      some { (new : ConnTracker ext) with parser := hinted }
    else none
  else some t

def buffer (bytes : Bytes) : ConnTracker ext :=
  match dir with
  | .inbound => { t with preInbound := t.preInbound ++ bytes }
  | .outbound => { t with preOutbound := t.preOutbound ++ bytes }

/-- The inbound bytes decide first; the outbound bytes are looked at while the peer has said
nothing. -/
def verdict (hint : Option String) : Verdict ext :=
  let inbound := detect t.preInbound hint
  let outbound := if hint.isNone && t.preInbound.isEmpty then detect t.preOutbound none
    else .needMore
  match inbound, outbound with
  | .parser parser, _ => .bind parser (if hint.isNone then some .server else none) false
  | _, .parser parser => .bind parser (some .client) true
  | .unknown, _ => .kill
  | _, .unknown => .wait
  | _, _ => .wait

/-- Bind a parser and replay what has been buffered. -/
def bind (parser : Parser ext) (role : Option PeerRole) (flipped : Bool)
    (ts : Int64) : Option (ConnTracker ext) := do
  let requests := if flipped then t.preOutbound else t.preInbound
  let responses := if flipped then t.preInbound else t.preOutbound
  let parser ← parser.onBytes .inbound requests ts
  let parser ← parser.onBytes .outbound responses ts
  if parser.isDead then return killed
  else
    return { t with preInbound := [], preOutbound := [], byteRole := role, parser := some parser }

def onSegment (bytes : Bytes) (ts : Int64)
    (hint : Option String) (flip : Bool) : Option (ConnTracker ext) :=
  let dir := t.orient dir flip
  match t.revive dir bytes hint with
  | none => some t
  | some t =>
      match t.parser with
      | some parser => do
          let parser ← parser.onBytes dir bytes ts
          if parser.isDead then return killed else return { t with parser := some parser }
      | none =>
          let t := t.buffer dir bytes
          match t.verdict hint with
          | .bind parser role flipped => t.bind parser role flipped ts
          | .kill => some killed
          | .wait => some t

def takeRecords (t : ConnTracker ext) : List L7Record × ConnTracker ext :=
  match t.parser with
  | none => ([], t)
  | some parser => (parser.takeRecords.1, { t with parser := some parser.takeRecords.2 })

end ConnTracker

/-! ## The registry -/

/-- A segment with what the port table says about its connection. -/
structure Input where
  segment : CapturedSegment
  hint : Option String
  flip : Bool

/-- `on_segment_hinted` for the tracker of the segment's connection: a gap is taken in after the
bytes before it. -/
def ConnTracker.feed (t : ConnTracker ext) (input : Input) :
    Option (ConnTracker ext × List L7Record) := do
  let seg := input.segment
  let t ← t.onSegment seg.direction seg.bytes seg.timestampNano input.hint input.flip
  let (records, t) := t.takeRecords
  return (if seg.streamGap then killed else t, records)

/-- The connections of a registry. -/
def conns (ext : Externals) :
    Machine CapturedConnectionIdentity Input (ConnTracker ext) L7Record where
  key input := input.segment.connectionIdentity
  init := .new
  step := ConnTracker.feed

/-- Trackers by connection identity, and how many segments were refused. -/
abbrev ConnRegistry (ext : Externals) := Keyed CapturedConnectionIdentity (ConnTracker ext)

namespace ConnRegistry

def new : ConnRegistry ext := Machine.fresh

/-- Feed one segment; `none` when the call does not return. -/
def onSegmentHinted (r : ConnRegistry ext) (input : Input) :
    Option (ConnRegistry ext × List L7Record) :=
  (conns ext).feedOne maxTrackedConns r input

/-- Feed segments, up to the first call that does not return: the records with their
connections. -/
def emitted (ext : Externals) (inputs : List Input) :
    List (CapturedConnectionIdentity × L7Record) :=
  (conns ext).feed maxTrackedConns new inputs

end ConnRegistry

end

end EdgePacer.L7
