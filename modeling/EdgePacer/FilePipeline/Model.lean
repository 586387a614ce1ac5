import EdgePacer.Delivery.BatchTracker
import EdgePacer.Delivery.Shipper
import EdgePacer.Delivery.Replay
import EdgePacer.Source.ContainerReader
import EdgePacer.Source.Assembler

/-!
# The file pipeline

The delivery pipeline of a file-backed source: a tailer whose lines go to the disk buffer, directly
or as assembled events, a drain that ships buffered entries, and a checkpoint that follows the
consecutive acks. The pipeline's loop runs one cycle at a time, in an order its timers decide, so a
run is a list of events; each event carries what the environment decides about its cycle.

A read, a timeout check and a flush are split into what they take in (`intake`: the new tailer and
assembler state, and the items to store with their byte ranges) and storing it (`enqueue`).
`step_effect` says once what any event can do to the tracker and to the buffer's sequence numbers.
-/

namespace EdgePacer.FilePipeline

open Lib Delivery Source EntryAssembler

/-- The libraries the sources are read with. -/
structure Externals where
  utf16 : Utf16Decoder
  parsers : RecordParsers

/-! ## Tailers -/

/-- The three kinds of reader. -/
inductive LogTailer where
  | file (t : FileTailer)
  | dockerJson (t : FileTailer) (reassembler : DockerJsonReassembler)
  | kubernetes (t : ContainerReader)

/-- A line with the file bytes it stands for. -/
structure TailedLine where
  payload : Bytes
  sourceLen : Nat
  stream : LogStream
  deriving DecidableEq

structure ReadPosition where
  (offset inode : Nat)
  deriving DecidableEq

/-- What a read sees of the file system, for a file and for a container directory. -/
structure SourceView where
  file : FileView
  dir : DirView

def lineWithPayloadAsSource (payload : Bytes) : TailedLine where
  sourceLen := payload.length + 1
  payload := stripOwned payload
  stream := .unspecified

def dockerJsonTailedLine (line : DockerJsonLine) : TailedLine where
  payload := stripOwned line.payload
  sourceLen := line.sourceLen
  stream := line.stream

def containerTailedLine (line : ContainerLine) : TailedLine where
  payload := line.message
  sourceLen := line.sourceLen
  stream := line.stream

/-- Feed raw lines to the reassembler and keep the lines they complete. -/
def pushAll (ps : RecordParsers) : List Bytes → DockerJsonReassembler →
    List DockerJsonLine × DockerJsonReassembler
  | [], r => ([], r)
  | raw :: raws, r =>
      let pushed := r.push ps raw
      let next := pushAll ps raws pushed.2
      (pushed.1.toList ++ next.1, next.2)

namespace LogTailer

def position : LogTailer → ReadPosition
  | .file t | .dockerJson t _ => ⟨t.state.offset, t.state.inode⟩
  | .kubernetes t => ⟨t.offset, t.inode⟩

/-- File bytes of fragments that complete no line yet. -/
def pendingPartialBytes : LogTailer → Nat
  | .file _ => 0
  | .dockerJson _ r => r.pendingBytes
  | .kubernetes t => t.partialSourceLen

def readLines (libs : Externals) (view : SourceView) (maxLines : Nat) :
    LogTailer → List TailedLine × LogTailer
  | .file t =>
      let read := t.readLines libs.utf16 view.file maxLines
      (read.1.map fun l => lineWithPayloadAsSource l.payload, .file read.2)
  | .dockerJson t r =>
      let read := t.readLines libs.utf16 view.file maxLines
      let pushed := pushAll libs.parsers (read.1.map TailLine.payload) r
      (pushed.1.map dockerJsonTailedLine, .dockerJson read.2 pushed.2)
  | .kubernetes t =>
      let read := t.readLines libs.parsers view.dir maxLines
      (read.1.map containerTailedLine, .kubernetes read.2)

end LogTailer

/-! ## Pipeline state -/

structure PipelineConfig where
  (batchSize shipBatchMaxBytes : Nat)

/-- The pipeline of one log file. -/
structure DeliveryPipeline where
  tailer : LogTailer
  buffer : DiskBuffer
  /-- The checkpoint in the store. -/
  persisted : Option Checkpoint
  tracker : BatchTracker
  config : PipelineConfig
  sourceId : String
  overflow : Option Writer
  blocked : Bool
  assemblers : Option StreamAssemblers
  runningOffset : Nat

/-- Multi-line settings, with the compiled start patterns as one test. -/
structure MultilineConfig where
  isStart : Bytes → Bool
  (maxLines timeoutSecs : Nat)

def MultilineConfig.assemblers (cfg : MultilineConfig) : StreamAssemblers :=
  .new cfg.isStart cfg.maxLines cfg.timeoutSecs

/-- Something to store: a line or an event, its byte range, and where its lines start. -/
structure Item where
  data : Bytes
  stream : LogStream
  (start stop : Nat)
  lineStarts : List Nat
  deriving DecidableEq

/-- What the environment decides about storing items: whether the buffer's transaction fails, the
clock, and the fate of each overflow write. -/
structure StoreEnv where
  fault : Bool
  now : TimestampNs
  writes : Nat → WriteEnv

structure ReadEnv where
  view : SourceView
  /-- The instant at which each line reaches its assembler. -/
  clock : Nat → Nat
  store : StoreEnv

/-- What the environment decides about a drain: the batch size (computed in floating point from
the buffer's pressure), the transport, database faults, and whether the pressure counts as
released. -/
structure DrainEnv where
  batchSize : Nat
  peekFault : Bool
  transport : Transport
  (deleteFault released emptyFault : Bool)
  replay : ReplayEnv

/-- One turn of the pipeline's loop. -/
inductive Event where
  | read (env : ReadEnv)
  | assemblerCheck (now : Nat) (store : StoreEnv)
  | flush (store : StoreEnv)
  | drain (env : DrainEnv)
  | checkpoint (saved : Bool)
  /-- Another source used the shared overflow store. -/
  | overflowElsewhere (store : Writer)

/-- Items of a batch of plain lines from `start` on. Blank lines are dropped; offsets advance over
them. -/
def batchItems : Nat → List TailedLine → List Item
  | _, [] => []
  | start, line :: lines =>
      let stop := start + line.sourceLen
      if isBlankLogLine line.payload then batchItems stop lines
      else ⟨line.payload, line.stream, start, stop, [start]⟩ :: batchItems stop lines

def eventItem (ev : StreamEvent) : Item where
  data := ev.2.bytes
  stream := ev.1
  start := ev.2.metadata.first.startOffset
  stop := ev.2.metadata.last.endOffset
  lineStarts := ev.2.lines.map fun line => line.2.startOffset

/-- Feed lines to the assemblers, giving each the next byte range from `running` on. -/
def feed (inode : Nat) (clock : Nat → Nat) : Nat → Nat → List TailedLine → StreamAssemblers →
    List StreamEvent × StreamAssemblers
  | _, _, [], as => ([], as)
  | running, i, line :: lines, as =>
      let ctx : LineContext := ⟨running, running + line.sourceLen, inode⟩
      let fed := as.process line.stream (clock i) (line.payload, ctx)
      let next := feed inode clock (running + line.sourceLen) (i + 1) lines fed.2
      (fed.1.toList.map (fun ev => (line.stream, ev)) ++ next.1, next.2)

/-- Track one batch per item, under consecutive buffer sequence numbers. -/
def trackAll (inode : Nat) : Nat → List Item → BatchTracker → BatchTracker
  | _, [], t => t
  | seq, item :: items, t =>
      trackAll inode (seq + 1) items (t.track item.start item.stop inode seq seq).2

/-- Write lines to overflow, counting the writes that succeed. -/
def spillLoop (source : String) (env : StoreEnv) : Nat → List Bytes → Writer → Nat × Writer
  | _, [], w => (0, w)
  | i, line :: lines, w =>
      let wrote := w.write (env.writes i) source line env.now
      let next := spillLoop source env (i + 1) lines wrote.2
      ((if wrote.1 then 1 else 0) + next.1, next.2)

namespace DeliveryPipeline

variable (libs : Externals)

/-- A pipeline as it starts, over whatever an earlier process left in the buffer. -/
def start (tailer : LogTailer) (table : SeqTable Bytes) (bufferMaxMb : Nat)
    (persisted : Option Checkpoint) (config : PipelineConfig) (sourceId : String)
    (overflow : Option Writer) (assemblers : Option StreamAssemblers) : DeliveryPipeline where
  tailer := tailer
  buffer := DiskBuffer.open table bufferMaxMb
  persisted := persisted
  tracker := BatchTracker.new
  config := config
  sourceId := sourceId
  overflow := overflow
  blocked := false
  assemblers := assemblers
  runningOffset := tailer.position.offset

/-! ### Storing items -/

variable (p : DeliveryPipeline)

def spillToOverflow (items : List Item) (env : StoreEnv) : Nat × Option Writer :=
  match p.overflow with
  | none => (0, none)
  | some w =>
      let spilled := spillLoop p.sourceId env 0 (items.map Item.data) w
      (spilled.1, some spilled.2)

/-- Store items in the buffer and track them; when it is full, spill them; what cannot be stored
is dropped. -/
def enqueue (items : List Item) (inode : Nat) (env : StoreEnv) : DeliveryPipeline :=
  if items = [] then p
  else
    match p.buffer.enqueueStreamBatch env.fault (items.map fun i => (i.data, i.stream)) env.now with
    | .ok (seqs, buffer) =>
        { p with buffer := buffer, tracker := trackAll inode seqs.1 items p.tracker }
    | .error (.full _ _) =>
        let spilled := p.spillToOverflow items env
        { p with
          overflow := spilled.2
          blocked := if spilled.1 < items.length then true else p.blocked }
    | .error _ => p

/-! ### Taking lines in -/

/-- The offset up to which the tailer's bytes are accounted for by lines. -/
def nextOffset (t : LogTailer) : Nat := t.position.offset - t.pendingPartialBytes

def readIntake (env : ReadEnv) : DeliveryPipeline × List Item :=
  if p.blocked then (p, [])
  else
    let read := p.tailer.readLines libs env.view p.config.batchSize
    let next := nextOffset read.2
    if read.1 = [] then ({ p with tailer := read.2 }, [])
    else
      match p.assemblers with
      | none =>
          let batchBytes := (read.1.map TailedLine.sourceLen).sum
          ({ p with tailer := read.2, runningOffset := next },
            batchItems (next - batchBytes) read.1)
      | some as =>
          let fed := feed read.2.position.inode env.clock p.runningOffset 0 read.1 as
          ({ p with tailer := read.2, runningOffset := next, assemblers := some fed.2 },
            fed.1.map eventItem)

/-- Drain the assemblers with a timeout check or a flush. -/
def drainIntake (drain : EntryAssembler → Option AssembledEvent × EntryAssembler) :
    DeliveryPipeline × List Item :=
  match p.assemblers with
  | none => (p, [])
  | some as =>
      let ready := as.collectReady drain
      ({ p with assemblers := some ready.2 }, ready.1.map eventItem)

/-- The state after an event's input is taken in, and the items it has to store. -/
def intake : Event → DeliveryPipeline × List Item
  | .read env => p.readIntake libs env
  | .assemblerCheck now _ => p.drainIntake (checkTimeout now)
  | .flush _ => p.drainIntake flush
  | .drain _ | .checkpoint _ | .overflowElsewhere _ => (p, [])

/-- Read lines, assemble them if configured, and store what is complete. -/
def readCycle (env : ReadEnv) : DeliveryPipeline :=
  let taken := p.readIntake libs env
  taken.1.enqueue taken.2 taken.1.tailer.position.inode env.store

def assemblerCheckCycle (now : Nat) (store : StoreEnv) : DeliveryPipeline :=
  let taken := p.drainIntake (checkTimeout now)
  taken.1.enqueue taken.2 taken.1.tailer.position.inode store

/-- The flush of all assemblers at shutdown. -/
def flushAssemblers (store : StoreEnv) : DeliveryPipeline :=
  let taken := p.drainIntake flush
  taken.1.enqueue taken.2 taken.1.tailer.position.inode store

/-! ### Draining -/

/-- Put spilled lines back into the buffer. They are not tracked again. -/
def replayOverflowIntoBuffer (env : ReplayEnv) : DeliveryPipeline :=
  match p.overflow with
  | none => p
  | some w =>
      if w.hasOverflow p.sourceId = false then p
      else
        match env.fault with
        | some left => { p with overflow := some left }
        | none =>
            let batch := w.replayBatch p.sourceId REPLAY_BATCH env.now
            { p with
              overflow := some batch.2
              buffer := replayEnqueue env.enqueueFault 0 batch.1 p.buffer }

/-- Delete the handled entries from the buffer and ack as many batches. -/
def deleteAndAckPrefix (fault : Bool) (sequences : List Nat)
    (count : Nat) : Option DeliveryPipeline :=
  match p.buffer.deleteSequences fault (sequences.take count) with
  | .error _ => none
  | .ok buffer => some { p with buffer := buffer, tracker := p.tracker.ackHandledPrefix count }

def applyDrainOutcome (fault : Bool) (outcome : CappedShipOutcome)
    (sequences : List Nat) : Option DeliveryPipeline :=
  match outcome with
  | .delivered count => p.deleteAndAckPrefix fault sequences count
  | .droppedOversized count => p.deleteAndAckPrefix fault sequences count
  | .rejectedAdjudicated accepted rejected =>
      p.deleteAndAckPrefix fault sequences (accepted + rejected)
  | .deferred _ => none

/-- The outcome of shipping what was peeked. -/
def ship (env : DrainEnv) (entries : List BufferedEntry) : CappedShipOutcome :=
  shipCappedWithShrink (entries.map fun e => ⟨e.data, e.stream⟩) p.config.shipBatchMaxBytes
    env.transport

def drainCycle (env : DrainEnv) : DeliveryPipeline :=
  match p.buffer.peek env.peekFault env.batchSize with
  | .error _ => p
  | .ok [] => { p with blocked := false }
  | .ok (e :: es) =>
      match p.applyDrainOutcome env.deleteFault (p.ship env (e :: es))
          ((e :: es).map BufferedEntry.sequence) with
      | none => p
      | some p =>
          let p := if p.blocked && env.released then { p with blocked := false } else p
          if env.emptyFault = false ∧ p.buffer.isEmpty = true then
            p.replayOverflowIntoBuffer env.replay
          else p

/-! ### Checkpoints -/

/-- The furthest offset a checkpoint may reach: the oldest line still in an assembler. -/
def checkpointCeiling : Option Nat := p.assemblers.bind StreamAssemblers.bufferedStartOffset

/-- The checkpoint a checkpoint cycle saves. -/
def nextCheckpoint : Option Checkpoint :=
  p.tracker.safeCheckpoint.map fun safe =>
    { offset := match p.checkpointCeiling with
        | some ceiling => min safe.offset ceiling
        | none => safe.offset
      inode := safe.inode }

def checkpointCycle (saved : Bool) : DeliveryPipeline :=
  match p.nextCheckpoint with
  | none => p
  | some cp =>
      if saved then { p with persisted := some cp, tracker := p.tracker.drainAcked } else p

/-! ### Runs -/

def step : Event → DeliveryPipeline
  | .read env => p.readCycle libs env
  | .assemblerCheck now store => p.assemblerCheckCycle now store
  | .flush store => p.flushAssemblers store
  | .drain env => p.drainCycle env
  | .checkpoint saved => p.checkpointCycle saved
  | .overflowElsewhere store => { p with overflow := p.overflow.map fun _ => store }

end DeliveryPipeline

/-! ## Environments without surprises -/

/-- Libraries that find no container record. -/
def plainExternals : Externals where
  utf16 := ⟨id, id⟩
  parsers := ⟨fun _ => true, fun _ => none, fun _ => none⟩

def StoreEnv.quiet : StoreEnv := ⟨false, 0, fun _ => ⟨none, 0, 0, .created⟩⟩

/-- Read the file that lies at the path. -/
def Event.readFile (inode : Nat) (content : Bytes) : Event :=
  .read ⟨⟨FileView.ofFile inode content, DirView.missing⟩, fun _ => 0, .quiet⟩

/-- Read while the file `old` was moved away and `new` lies at the path. -/
def Event.readRotated (old new : Nat) (oldContent newContent : Bytes) : Event :=
  .read ⟨⟨FileView.rotatedTo old new oldContent newContent, DirView.missing⟩, fun _ => 0, .quiet⟩

/-- Ship up to `batchSize` entries to a receiver that accepts them. -/
def Event.deliver (batchSize : Nat) : Event :=
  .drain ⟨batchSize, false, fun entries => .ok (.accepted entries.length), false, true, false,
    ⟨none, 0, fun _ => false⟩⟩

/-- The bytes of an ASCII text. -/
def ascii (text : String) : Bytes := text.toList.map fun c => UInt8.ofNat c.toNat

/-- What the CRI pattern captures on full records with a timestamp of twenty characters. -/
def criParsers : RecordParsers where
  validUtf8 := fun _ => true
  logPattern := fun line =>
    if hasWindow (ascii " stderr F ") line then some ⟨"stderr", false, 30⟩
    else if hasWindow (ascii " stdout F ") line then some ⟨"stdout", false, 30⟩
    else none
  dockerJson := fun _ => none

def criExternals : Externals := ⟨⟨id, id⟩, criParsers⟩

/-- A reader at the start of the only log file of a container. -/
def containerReader : ContainerReader := ⟨"0.log", some (.atPos 7 0), 0, 7, [], 0⟩

/-- Read that file with the given content. -/
def Event.readContainer (content : Bytes) : Event :=
  .read ⟨⟨FileView.ofFile 0 [],
    ⟨.found [("0.log", true)], fun _ => some (7, content.length), some content.length,
      fun _ => content⟩⟩, fun _ => 0, .quiet⟩

end EdgePacer.FilePipeline
