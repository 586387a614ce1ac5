import EdgePacer.L7.Record
import EdgePacer.Lib.Framing

/-!
# HTTP/2

Each direction is a sequence of frames; the client's starts with a fixed preface. Header blocks,
which may go on over CONTINUATION frames, are decoded in order by one HPACK decoder for each
direction. What is made of the decoded blocks is kept apart as a `Sink`: the parser's sink is
`Pairing`, which pairs requests and responses by stream id. The HPACK decoder is a parameter; the
walk that guards it against truncated blocks is `hpackBlockIsFramed`.
-/

namespace EdgePacer.L7.Http2

open Lib

/-! ## Frames -/

/-- The client's connection preface. -/
def preface : Bytes := ascii "PRI * HTTP/2.0\r\n\r\nSM\r\n\r\n"

def frameHeaderLen : Nat := 9

/-- A longer payload is taken for a corrupt length. -/
def maxFramePayload : Nat := 1024 * 1024

/-- How many requests, and how many responses, are tracked at once. -/
def maxOpenStreams : Nat := 1024

def flagSet (flags mask : UInt8) : Bool := flags &&& mask != 0

def flagEndStream : UInt8 := 0x1
def flagEndHeaders : UInt8 := 0x4
def flagPadded : UInt8 := 0x8
def flagPriority : UInt8 := 0x20

structure FrameHeader where
  length : Nat
  (kind flags : UInt8)
  streamId : Nat
  deriving DecidableEq

/-- The nine bytes in front of a payload; the top bit of the stream id is reserved. -/
def FrameHeader.parse : Bytes → Option FrameHeader
  | l₀ :: l₁ :: l₂ :: kind :: flags :: s₀ :: s₁ :: s₂ :: s₃ :: _ =>
      some
        { length := l₀.toNat * 2 ^ 16 + l₁.toNat * 2 ^ 8 + l₂.toNat
          kind := kind
          flags := flags
          streamId :=
            (s₀.toNat * 2 ^ 24 + s₁.toNat * 2 ^ 16 + s₂.toNat * 2 ^ 8 + s₃.toNat) % 2 ^ 31 }
  | _ => none

/-- A first part of the preface, which may still become one. -/
def looksLikePrefacePrefix (inbound : Bytes) : Bool :=
  !inbound.isEmpty && inbound.length < preface.length && inbound.isPrefixOf preface

/-- Whether the whole preface is there. -/
def detectHttp2 (inbound : Bytes) : Bool := preface.isPrefixOf inbound

/-- What a direction's buffer starts with: the preface (`awaiting_preface`), or a frame. -/
inductive Stage where
  | preface
  | frames
  deriving DecidableEq

/-- What a connection's stream is made of. -/
inductive Item where
  | preface
  | frame (header : FrameHeader) (payload : Bytes)
  deriving DecidableEq

/-- The next item of a buffer, for peers whose frames carry at most `limit` bytes. -/
def nextItem (limit : Nat) (_dir : Direction) (stage : Stage) (buf : Bytes) : Outcome Stage Item :=
  match stage with
  | .preface =>
      if buf.length < preface.length then .incomplete
      else if !preface.isPrefixOf buf then .invalid
      else .complete .preface preface.length .frames
  | .frames =>
      match FrameHeader.parse buf with
      | none => .incomplete
      | some header =>
          if header.length > limit then .invalid
          else
            let total := frameHeaderLen + header.length
            if buf.length < total then .incomplete
            else .complete (.frame header ((buf.take total).drop frameHeaderLen)) total .frames

/-- The client sends the preface, the server does not. -/
def startStage : Direction → Stage
  | .inbound => .preface
  | .outbound => .frames

/-! ## Header blocks -/

/-- Decoded header fields. -/
abbrev DecodedHeaders := List (Bytes × Bytes)

/-- The rest of an HPACK integer, of at most five octets with the `total` already read. -/
def intLenRest : Bytes → Nat → Option Nat
  | [], _ => none
  | byte :: rest, total =>
      if byte &&& 0x80 = 0 then some (total + 1)
      else if total + 1 = 5 then none
      else intLenRest rest (total + 1)

/-- The octets that an HPACK integer with `width` bits in its first octet takes. -/
def intLen : Bytes → Nat → Option Nat
  | [], _ => none
  | first :: rest, width =>
      let mask := UInt8.ofNat (2 ^ width - 1)
      if first &&& mask ≠ mask then some 1 else intLenRest rest 1

/-- The rest of a string's length. -/
def strLenRest : Bytes → Nat → Nat → Option Nat
  | [], _, _ => none
  | byte :: rest, shift, len =>
      let len := len + ((byte &&& 0x7f).toNat <<< shift)
      if byte &&& 0x80 = 0 then some len else strLenRest rest (shift + 7) len

/-- The octets that an HPACK string takes, if they are all there. -/
def strLen (buf : Bytes) : Option Nat := do
  let hdr ← intLen buf 7
  let first ← buf.head?
  let len ← if first &&& 0x7f = 0x7f then strLenRest buf.tail 0 0x7f
    else some (first &&& 0x7f).toNat
  if hdr + len ≤ buf.length then some (hdr + len) else none

/-- A literal field: an index, a name if the index is zero, and a value. -/
def literalLen (buf : Bytes) (width : Nat) : Option Nat := do
  let idxLen ← intLen buf width
  let first ← buf.head?
  let total ← if first &&& UInt8.ofNat (2 ^ width - 1) = 0 then
      (strLen (buf.drop idxLen)).map (idxLen + ·)
    else some idxLen
  let value ← strLen (buf.drop total)
  return total + value

/-- The octets of the field representation at the front of a block. -/
def fieldLen (rest : Bytes) : Option Nat := do
  let octet ← rest.head?
  if octet &&& 0x80 ≠ 0 then intLen rest 7
  else if octet &&& 0x40 ≠ 0 then literalLen rest 6
  else if octet &&& 0x20 ≠ 0 then intLen rest 5
  else literalLen rest 4

def hpackFramedLoop : Nat → Bytes → Bool
  | _, [] => true
  | 0, _ => false
  | fuel + 1, rest =>
      match fieldLen rest with
      | none => false
      | some 0 => false
      | some n => hpackFramedLoop fuel (rest.drop n)

/-- Whether the fields of a block end where the block ends. -/
def hpackBlockIsFramed (block : Bytes) : Bool := hpackFramedLoop block.length block

/-- The HPACK decoder (`httlib_hpack`) and `String::from_utf8_lossy`. A call of the decoder takes
octets off the front of its input; it says how many. -/
structure Codec where
  State : Type
  fresh : State
  decode : State → Bytes → Option (State × Nat × DecodedHeaders)
  lossy : Bytes → String

/-- A block whose CONTINUATION frames are still to come. -/
structure OpenBlock where
  streamId : Nat
  endStream : Bool
  fragment : Bytes

/-- A direction's decoder, and the block that is open. -/
structure HeaderAssembly (δ : Type) where
  decoder : δ
  openBlock : Option OpenBlock

section

variable (cx : Codec)

def decodeLoop : Nat → cx.State → Bytes → DecodedHeaders → Option (cx.State × DecodedHeaders)
  | _, decoder, [], dst => some (decoder, dst)
  | 0, _, _, _ => none
  | fuel + 1, decoder, buf, dst =>
      match cx.decode decoder buf with
      | none => none
      | some (decoder, n, headers) =>
          -- a call that takes nothing would be repeated for ever
          if n = 0 then none else decodeLoop fuel decoder (buf.drop n) (dst ++ headers)

def decodeBlock (decoder : cx.State) (block : Bytes) : Option (cx.State × DecodedHeaders) :=
  if !hpackBlockIsFramed block then none else decodeLoop cx block.length decoder block []

/-- The header block in a HEADERS payload, without padding and priority. -/
def headerBlockFragment (flags : UInt8) (payload : Bytes) : Option Bytes := do
  let (padLen, rest) ← if flagSet flags flagPadded then
      match payload with
      | [] => none
      | first :: tail => some (first.toNat, tail)
    else some (0, payload)
  let rest ← if flagSet flags flagPriority then
      if rest.length < 5 then none else some (rest.drop 5)
    else some rest
  if padLen > rest.length then none else some (rest.take (rest.length - padLen))

/-- What is made of decoded blocks and of the ends of response streams. -/
structure Sink (π : Type) where
  onRequestHeaders : π → Nat → DecodedHeaders → Int64 → π
  onResponseHeaders : π → Nat → Bool → DecodedHeaders → Int64 → π
  completeResponse : π → Nat → Int64 → π

/-- The parser without its buffers. -/
structure Core (π : Type) where
  (reqHeaders respHeaders : HeaderAssembly cx.State)
  dead : Bool
  out : π

variable {cx} {π : Type}

namespace Core

variable (c : Core cx π)

def asm : Direction → HeaderAssembly cx.State
  | .inbound => c.reqHeaders
  | .outbound => c.respHeaders

def setAsm (dir : Direction) (asm : HeaderAssembly cx.State) : Core cx π :=
  match dir with
  | .inbound => { c with reqHeaders := asm }
  | .outbound => { c with respHeaders := asm }

def kill : Core cx π := { c with dead := true }

variable (sink : Sink π)

/-- A complete block: it is decoded in any case, to keep the decoder's table in step. -/
def finishBlock (dir : Direction) (streamId : Nat) (endStream : Bool)
    (block : Bytes) (ts : Int64) : Core cx π :=
  match decodeBlock cx (c.asm dir).decoder block with
  | none => c.kill
  | some (decoder, headers) =>
      let c := c.setAsm dir { c.asm dir with decoder := decoder }
      match dir with
      | .inbound => { c with out := sink.onRequestHeaders c.out streamId headers ts }
      | .outbound => { c with out := sink.onResponseHeaders c.out streamId endStream headers ts }

def onHeaders (dir : Direction) (header : FrameHeader) (payload : Bytes) (ts : Int64) : Core cx π :=
  match headerBlockFragment header.flags payload with
  | none => c.kill
  | some fragment =>
      -- a block is already open
      if (c.asm dir).openBlock.isSome then c.kill
      else
        let endStream := flagSet header.flags flagEndStream
        if flagSet header.flags flagEndHeaders then
          c.finishBlock sink dir header.streamId endStream fragment ts
        else
          c.setAsm dir { c.asm dir with openBlock := some ⟨header.streamId, endStream, fragment⟩ }

def onContinuation (dir : Direction) (header : FrameHeader) (payload : Bytes)
    (ts : Int64) : Core cx π :=
  match (c.asm dir).openBlock with
  | none => c.kill
  | some block =>
      if block.streamId ≠ header.streamId then c.kill
      else
        let fragment := block.fragment ++ payload
        if flagSet header.flags flagEndHeaders then
          (c.setAsm dir { c.asm dir with openBlock := none }).finishBlock sink dir block.streamId
            block.endStream fragment ts
        else
          c.setAsm dir { c.asm dir with openBlock := some { block with fragment := fragment } }

/-- HEADERS and CONTINUATION carry header blocks, the last DATA frame of a response ends it, and
the other frames carry nothing of interest. -/
def handleFrame (dir : Direction) (header : FrameHeader) (payload : Bytes)
    (ts : Int64) : Core cx π :=
  if header.kind = 0x1 then c.onHeaders sink dir header payload ts
  else if header.kind = 0x9 then c.onContinuation sink dir header payload ts
  else if header.kind = 0x0 ∧ dir = .outbound ∧ flagSet header.flags flagEndStream then
    { c with out := sink.completeResponse c.out header.streamId ts }
  else c

def handleItem (dir : Direction) (item : Item) (ts : Int64) : Core cx π :=
  match item with
  | .preface => c
  | .frame header payload => c.handleFrame sink dir header payload ts

end Core

/-- `drain`: the preface first, then frames. -/
def framer (cx : Codec) (sink : Sink π) : Framer Direction Stage UInt8 Item Int64 (Core cx π) where
  next := nextItem maxFramePayload
  handle c dir item ts := c.handleItem sink dir item ts
  fail c := c.kill
  stop c := c.dead
  stop_fail _ := rfl

def newCore (cx : Codec) (out : π) : Core cx π :=
  { reqHeaders := ⟨cx.fresh, none⟩, respHeaders := ⟨cx.fresh, none⟩, dead := false, out := out }

end

/-! ## Pairing -/

/-- A request whose response is awaited. -/
structure PendingRequest where
  operation : String
  attributes : List (String × String)
  startUnixNano : Int64
  propagated : Option PropagatedContext
  deriving DecidableEq

structure PendingResponse where
  status : Option Nat
  grpcStatus : Option Int
  deriving DecidableEq

/-- Open requests and responses by stream id, and the records completed. -/
structure Pairing where
  pending : Std.ExtTreeMap Nat PendingRequest
  responses : Std.ExtTreeMap Nat PendingResponse
  records : List L7Record

def headerText (headers : DecodedHeaders) (name : String) : Option String :=
  (headers.find? fun h => h.1 = ascii name).bind fun h => fromUtf8 h.2

/-- A valid `traceparent`, with the `tracestate` beside it. -/
def propagatedContext (headers : DecodedHeaders) : Option PropagatedContext := do
  let ctx ← (headerText headers "traceparent").bind fun value => parseTraceparent (Text.trim value)
  match headerText headers "tracestate" with
  | some state => return { ctx with traceState := Text.trim state }
  | none => return ctx

variable (lossy : Bytes → String)

/-- The last value of a name, as text. -/
def lastText (headers : DecodedHeaders) (name : String) : Option String :=
  headers.foldl (fun value h => if h.1 = ascii name then some (lossy h.2) else value) none

/-- The request a header block opens; trailers, which lack `:method` and `:path`, open none. -/
def requestOf (headers : DecodedHeaders) (ts : Int64) : Option PendingRequest :=
  match lastText lossy headers ":method", lastText lossy headers ":path" with
  | some method, some path =>
      let host := match (lastText lossy headers ":authority").filter fun a => !a.isEmpty with
        | some authority => [("http.host", authority)]
        | none => []
      some
        { operation := method ++ " " ++ path
          attributes := host ++ [("http.target", path)]
          startUnixNano := ts
          propagated := propagatedContext headers }
  | _, _ => none

/-- What a header says about the response. -/
def PendingResponse.note (resp : PendingResponse) (header : Bytes × Bytes) : PendingResponse :=
  if header.1 = ascii ":status" then
    { resp with status := (fromUtf8 header.2).bind (parseUnsigned 16) }
  else if header.1 = ascii "grpc-status" then
    { resp with grpcStatus := (fromUtf8 header.2).bind (parseSigned 64) }
  else resp

def PendingResponse.grpcError (resp : PendingResponse) : Bool :=
  match resp.grpcStatus with
  | some code => code != 0
  | none => false

/-- The record of a request whose response ends at `ts`. -/
def record (req : PendingRequest) (resp : PendingResponse) (ts : Int64) : L7Record :=
  let status := resp.status.getD 0
  { protocol := .http2
    attributes := req.attributes
    operation := req.operation
    statusCode := status
    error := 500 ≤ status || resp.grpcError
    startUnixNano := req.startUnixNano
    durationNano := latency req.startUnixNano ts
    propagated := req.propagated }

namespace Pairing

def new : Pairing := ⟨∅, ∅, []⟩

def onRequestHeaders (p : Pairing) (streamId : Nat)
    (headers : DecodedHeaders) (ts : Int64) : Pairing :=
  match requestOf lossy headers ts with
  | none => p
  | some req =>
      if p.pending.size < maxOpenStreams then { p with pending := p.pending.insert streamId req }
      else p

/-- A finished response completes its request; without one it is dropped. -/
def completeResponse (p : Pairing) (streamId : Nat) (ts : Int64) : Pairing :=
  match p.pending[streamId]? with
  | none => { p with responses := p.responses.erase streamId }
  | some req =>
      let resp := p.responses[streamId]?.getD ⟨none, none⟩
      { pending := p.pending.erase streamId
        responses := p.responses.erase streamId
        records := p.records ++ [record req resp ts] }

def onResponseHeaders (p : Pairing) (streamId : Nat) (endStream : Bool) (headers : DecodedHeaders)
    (ts : Int64) : Pairing :=
  if !p.responses.contains streamId && maxOpenStreams ≤ p.responses.size then p
  else
    let entry := headers.foldl PendingResponse.note (p.responses[streamId]?.getD ⟨none, none⟩)
    let p := { p with responses := p.responses.insert streamId entry }
    if endStream then p.completeResponse streamId ts else p

def sink : Sink Pairing where
  onRequestHeaders := onRequestHeaders lossy
  onResponseHeaders := onResponseHeaders
  completeResponse := completeResponse

end Pairing

/-! ## The parser -/

/-- A buffer for each direction, the assembly of header blocks, and the pairing. -/
abbrev Http2Parser (cx : Codec) := Demux Direction Stage UInt8 (Core cx Pairing)

namespace Http2Parser

variable {cx : Codec}

def new (cx : Codec) : Http2Parser cx := Framer.fresh startStage (newCore cx .new)

variable (parser : Http2Parser cx)

/-- `on_inbound` and `on_outbound`. -/
def onBytes (dir : Direction) (bytes : Bytes) (ts : Int64) : Option (Http2Parser cx) :=
  (framer cx (Pairing.sink cx.lossy)).step parser (dir, bytes, ts)

def takeRecords : List L7Record × Http2Parser cx :=
  let core := { parser.core with out := { parser.core.out with records := [] } }
  (parser.core.out.records, { parser with core := core })

def isDead : Bool := parser.core.dead

end Http2Parser

end EdgePacer.L7.Http2
