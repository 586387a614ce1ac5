import EdgePacer.Delivery.Replay
import EdgePacer.Delivery.Shipper
import Mathlib.Data.List.DropRight

/-!
# The streaming pipeline

The delivery pipeline of a source that cannot be read again (a container's log stream, journald, a
capture loop): a line is in the disk buffer, or in the overflow store when the buffer is full,
before `enqueue` answers that it was taken. One slot holds the resume checkpoint that covers the
lines so far; it is persisted only when the buffer is found empty.

The checkpoint's contents play no part, so its type `κ` is a parameter. Each operation takes what
the environment decides about it. `Journal` is a history variable: operations append to it what
they did and never read it, so that properties of whole runs can name the lines they are about.

Preparing a drain and applying a ship's outcome come down to the elementary operations `Op`
(`prepareDrain_apply`, `applyDrainOutcome_apply`), so that a property is proved once for each.
-/

namespace EdgePacer.Streaming

open Lib Delivery

universe u

/-! ## Lines and what became of them -/

/-- A line as a producer hands it over. -/
structure StreamLine where
  data : Bytes
  timestampNs : TimestampNs
  stream : LogStream
  deriving DecidableEq

/-- What was done with an accepted line: dropped as blank, buffered under a sequence number, or
written to overflow. A spilled line's ticket is its position among the accepted lines. -/
inductive Fate where
  | blank
  | buffered (sequence : Nat)
  | spilled (ticket : Nat)
  deriving DecidableEq

/-- The history of a pipeline. A record that an earlier process left in the overflow store has no
ticket. -/
structure Journal where
  /-- The lines `enqueue` answered `true` for, in order. -/
  accepted : List (StreamLine × Fate)
  /-- The ships that came to an end, in order: the numbers of the batch, and the outcome. -/
  ships : List (List Nat × CappedShipOutcome)
  /-- The numbers deleted from the buffer, in order. -/
  settled : List Nat
  /-- The tickets of the records in the overflow store, oldest first. -/
  inStore : List (Option Nat)
  /-- The tickets of replayed records, with their numbers in the buffer. -/
  replayed : List (Option Nat × Nat)
  /-- The tickets of records evicted from the store. -/
  evicted : List (Option Nat)
  /-- The tickets of records a replay took from the store and did not put into the buffer. -/
  lost : List (Option Nat)
  deriving DecidableEq

namespace Journal

/-- The journal of a pipeline that starts over a store with `n` records. -/
def start (n : Nat) : Journal := ⟨[], [], [], List.replicate n none, [], [], []⟩

variable (j : Journal)

def accept (line : StreamLine) (fate : Fate) : Journal :=
  { j with accepted := j.accepted ++ [(line, fate)] }

/-- A ship came to an end. -/
def ship (sequences : List Nat) (outcome : CappedShipOutcome) : Journal :=
  { j with ships := j.ships ++ [(sequences, outcome)] }

def settle (sequences : List Nat) : Journal :=
  { j with settled := j.settled ++ sequences }

/-- An outcome handled the number: it is one of the first in its batch, as many as the outcome says
were delivered, adjudicated or dropped as oversized. -/
def Shipped (sequence : Nat) : Prop :=
  ∃ x ∈ j.ships, sequence ∈ x.1.take x.2.handled

/-- The store has its last `n` records left; the older ones were evicted. -/
def evictTo (n : Nat) : Journal :=
  { j with inStore := j.inStore.rtake n, evicted := j.evicted ++ j.inStore.rdrop n }

/-- A line was written to the store, which then has `n` records. -/
def spill (line : StreamLine) (n : Nat) : Journal :=
  { j.accept line (.spilled j.accepted.length) with
    inStore := j.inStore ++ [some j.accepted.length] }.evictTo n

/-- A replay left the last `n` records in the store and put the first `k` of the others into the
buffer, under the numbers from `first` on. -/
def replay (n first k : Nat) : Journal :=
  { j with
    inStore := j.inStore.rtake n
    replayed := j.replayed ++ ((j.inStore.rdrop n).take k).zip (List.range' first k)
    lost := j.lost ++ (j.inStore.rdrop n).drop k }

end Journal

/-! ## State and environment -/

/-- The pipeline of one stream. -/
structure StreamingDeliveryPipeline (κ : Type u) where
  buffer : DiskBuffer
  /-- The checkpoint in the store. -/
  persisted : Option κ
  (shipBatchSize shipBatchMaxBytes : Nat)
  sourceId : String
  overflow : Option Writer
  /-- The most recent checkpoint to persist. -/
  pendingCheckpoint : Option κ
  journal : Journal

/-- Whether the buffer's transaction fails, and the fate of an overflow write. -/
structure EnqueueEnv where
  fault : Bool
  write : WriteEnv

structure SaveEnv where
  (emptyFault saveFault : Bool)

/-- What the environment decides when the buffer was found empty. -/
structure IdleEnv where
  replay : ReplayEnv
  save : SaveEnv

structure PrepareEnv where
  peekFault : Bool
  idle : IdleEnv

structure ConfirmEnv where
  (deleteFault emptyFault : Bool)
  idle : IdleEnv

/-- Peeked lines and the buffer sequences to delete once they are delivered. -/
structure Batch where
  lines : List ShipEntry
  sequences : List Nat
  deriving DecidableEq

/-- What a drain should do next. -/
inductive DrainPrep where
  | idle
  | batch (b : Batch)

/-- The records a source has in its overflow store. -/
def recordCount (overflow : Option Writer) (source : String) : Nat :=
  match overflow with
  | none => 0
  | some w => (w.available source).length

namespace StreamingDeliveryPipeline

variable {κ : Type u}

/-- A pipeline over whatever an earlier process left in the buffer and in the overflow store. -/
def «open» (table : SeqTable Bytes) (bufferMaxMb : Nat) (persisted : Option κ)
    (shipBatchSize shipBatchMaxBytes : Nat) (sourceId : String) (overflow : Option Writer) :
    StreamingDeliveryPipeline κ where
  buffer := DiskBuffer.open table bufferMaxMb
  persisted := persisted
  shipBatchSize := shipBatchSize
  shipBatchMaxBytes := shipBatchMaxBytes
  sourceId := sourceId
  overflow := overflow
  pendingCheckpoint := none
  journal := Journal.start (recordCount overflow sourceId)

variable (p : StreamingDeliveryPipeline κ)

/-- Resume point for a reconnecting reader: the pending checkpoint, else the persisted one. -/
def resumeCheckpoint : Option κ := p.pendingCheckpoint.or p.persisted

/-! ### Taking a line -/

/-- Write a line to overflow. The Boolean is `false` when there is no store or the write fails. -/
def spillToOverflow (env : WriteEnv) (line : StreamLine) : Bool × StreamingDeliveryPipeline κ :=
  match p.overflow with
  | none => (false, p)
  | some w =>
      let wrote := w.write env p.sourceId line.data line.timestampNs
      let p := { p with overflow := some wrote.2 }
      if wrote.1 then
        (true, { p with journal := p.journal.spill line (wrote.2.available p.sourceId).length })
      else (false, p)

/-- The buffer has no room for the line. -/
def isFull (env : EnqueueEnv) (line : StreamLine) : Bool :=
  match p.buffer.enqueueStreamBatch env.fault [(line.data, line.stream)] line.timestampNs with
  | .error (.full _ _) => true
  | _ => false

/-- Store a line durably. A blank line counts as taken. The Boolean is `false` for a line that
neither the buffer nor overflow took. -/
def enqueue (env : EnqueueEnv) (line : StreamLine) : Bool × StreamingDeliveryPipeline κ :=
  if isBlankLogLine line.data then (true, { p with journal := p.journal.accept line .blank })
  else
    match p.buffer.enqueueStreamBatch env.fault [(line.data, line.stream)] line.timestampNs with
    | .ok (seqs, buffer) =>
        (true, { p with
          buffer := buffer
          journal := p.journal.accept line (.buffered seqs.1) })
    | .error (.full _ _) => p.spillToOverflow env.write line
    | .error _ => (false, p)

/-! ### Idle housekeeping -/

/-- Put spilled lines back into the buffer. -/
def replayOverflowIntoBuffer (env : ReplayEnv) : StreamingDeliveryPipeline κ :=
  match p.overflow with
  | none => p
  | some w =>
      if w.hasOverflow p.sourceId = false then p
      else
        match env.fault with
        | some left => { p with overflow := some left }
        | none =>
            let batch := w.replayBatch p.sourceId REPLAY_BATCH env.now
            let buffer := replayEnqueue env.enqueueFault 0 batch.1 p.buffer
            let last := p.buffer.core.table.lastSeq
            { p with
              overflow := some batch.2
              buffer := buffer
              journal := p.journal.replay (batch.2.available p.sourceId).length (last + 1)
                (buffer.core.table.lastSeq - last) }

/-- Set the pending checkpoint, whatever was pending before. -/
def setPendingCheckpoint (checkpoint : κ) : StreamingDeliveryPipeline κ :=
  { p with pendingCheckpoint := some checkpoint }

/-- Persist the pending checkpoint if the buffer is empty. A checkpoint that is not persisted stays
pending. -/
def saveCheckpointIfPending (env : SaveEnv) : StreamingDeliveryPipeline κ :=
  match p.pendingCheckpoint with
  | none => p
  | some checkpoint =>
      if env.emptyFault = true ∨ p.buffer.isEmpty = false then p
      else if env.saveFault then p
      else { p with persisted := some checkpoint, pendingCheckpoint := none }

/-- What is done whenever the buffer was found empty: replay overflow, then try the checkpoint. -/
def idleHousekeeping (env : IdleEnv) : StreamingDeliveryPipeline κ :=
  (p.replayOverflowIntoBuffer env.replay).saveCheckpointIfPending env.save

/-! ### Draining -/

/-- Peek the next batch; an empty buffer gets the idle housekeeping instead. -/
def prepareDrain (env : PrepareEnv) : DrainPrep × StreamingDeliveryPipeline κ :=
  match p.buffer.peek env.peekFault p.shipBatchSize with
  | .error _ => (.idle, p)
  | .ok entries =>
      if entries.isEmpty then (.idle, p.idleHousekeeping env.idle)
      else
        (.batch ⟨entries.map fun e => ⟨e.data, e.stream⟩, entries.map BufferedEntry.sequence⟩, p)

/-- Delete the shipped sequences, then do the housekeeping if that emptied the buffer. The Boolean
says whether they were deleted. -/
def confirmDrained (env : ConfirmEnv) (sequences : List Nat) : Bool × StreamingDeliveryPipeline κ :=
  match p.buffer.deleteSequences env.deleteFault sequences with
  | .error _ => (false, p)
  | .ok buffer =>
      have p := { p with buffer := buffer, journal := p.journal.settle sequences }
      (true,
        if env.emptyFault = false ∧ p.buffer.isEmpty = true then p.idleHousekeeping env.idle else p)

/-- Apply a completed ship attempt to the buffer. -/
def applyDrainOutcome (env : ConfirmEnv)
    (outcome : CappedShipOutcome) (sequences : List Nat) : Bool × StreamingDeliveryPipeline κ :=
  have p := { p with journal := p.journal.ship sequences outcome }
  match outcome with
  | .delivered count => p.confirmDrained env (sequences.take count)
  | .droppedOversized count => p.confirmDrained env (sequences.take count)
  | .rejectedAdjudicated accepted rejected =>
      p.confirmDrained env (sequences.take (accepted + rejected))
  | .deferred _ => (false, p)

/-- What shipping a batch comes to. -/
def ship (transport : Transport) (b : Batch) : CappedShipOutcome :=
  shipCappedWithShrink b.lines p.shipBatchMaxBytes transport

/-- One inline drain cycle of the shutdown drain. -/
def drainCycle (prepare : PrepareEnv) (transport : Transport)
    (confirm : ConfirmEnv) : StreamingDeliveryPipeline κ :=
  match p.prepareDrain prepare with
  | (.idle, p) => p
  | (.batch b, p) => (p.applyDrainOutcome confirm (p.ship transport b) b.sequences).2

/-- Another source's operation on the shared overflow store. -/
def overflowElsewhere (op : OverflowOp) : StreamingDeliveryPipeline κ :=
  match p.overflow with
  | none => p
  | some w =>
      if op.source = p.sourceId then p
      else
        { p with
          overflow := some (op.apply w)
          journal := p.journal.evictTo ((op.apply w).available p.sourceId).length }

end StreamingDeliveryPipeline

/-! ## Elementary operations -/

/-- What any operation on a pipeline is made of, with its environment. -/
inductive Op (κ : Type u) where
  | enqueue (env : EnqueueEnv) (line : StreamLine)
  | setPendingCheckpoint (checkpoint : κ)
  | settle (fault : Bool) (outcome : CappedShipOutcome) (sequences : List Nat)
  | idleHousekeeping (env : IdleEnv)
  | saveCheckpointIfPending (env : SaveEnv)
  | overflowElsewhere (op : OverflowOp)

namespace StreamingDeliveryPipeline

variable {κ : Type u}

/-- Delete sequences, unless the database fails. -/
def remove (p : StreamingDeliveryPipeline κ) (fault : Bool) (sequences : List Nat) :
    StreamingDeliveryPipeline κ :=
  match p.buffer.deleteSequences fault sequences with
  | .error _ => p
  | .ok buffer => { p with buffer := buffer, journal := p.journal.settle sequences }

/-- Delete the sequences that an outcome handled. -/
def settle (p : StreamingDeliveryPipeline κ) (fault : Bool) (outcome : CappedShipOutcome)
    (sequences : List Nat) : StreamingDeliveryPipeline κ :=
  have p := { p with journal := p.journal.ship sequences outcome }
  match outcome with
  | .deferred _ => p
  | outcome => p.remove fault (sequences.take outcome.handled)

variable (p : StreamingDeliveryPipeline κ)

/-- The pipeline after an elementary operation. -/
def apply : Op κ → StreamingDeliveryPipeline κ
  | .enqueue env line => (p.enqueue env line).2
  | .setPendingCheckpoint checkpoint => p.setPendingCheckpoint checkpoint
  | .settle fault outcome sequences => p.settle fault outcome sequences
  | .idleHousekeeping env => p.idleHousekeeping env
  | .saveCheckpointIfPending env => p.saveCheckpointIfPending env
  | .overflowElsewhere op => p.overflowElsewhere op

def prepareOps (env : PrepareEnv) : List (Op κ) :=
  match p.buffer.peek env.peekFault p.shipBatchSize with
  | .error _ => []
  | .ok entries => if entries.isEmpty then [.idleHousekeeping env.idle] else []

/-- The housekeeping that follows a deletion which empties the buffer. -/
def confirmOps (env : ConfirmEnv) (sequences : List Nat) : List (Op κ) :=
  match p.buffer.deleteSequences env.deleteFault sequences with
  | .error _ => []
  | .ok buffer =>
      if env.emptyFault = false ∧ buffer.isEmpty = true then [.idleHousekeeping env.idle] else []

def outcomeOps (env : ConfirmEnv) (outcome : CappedShipOutcome)
    (sequences : List Nat) : List (Op κ) :=
  .settle env.deleteFault outcome sequences ::
    match outcome with
    | .deferred _ => []
    | outcome => p.confirmOps env (sequences.take outcome.handled)

/-- A line the buffer has no room for goes to overflow. -/
theorem enqueue_of_full {p : StreamingDeliveryPipeline κ} {env : EnqueueEnv} {line : StreamLine}
    {w w' : Writer} (hw : p.overflow = some w) (hblank : isBlankLogLine line.data = false)
    (hlen : line.data.length < 2 ^ 32)
    (hfull : p.buffer.core.maxBytes < p.buffer.core.currentBytes + (12 + line.data.length))
    (hwrote : w.write env.write p.sourceId line.data line.timestampNs = (true, w')) :
    p.enqueue env line = (true,
      { p with
        overflow := some w'
        journal := p.journal.spill line (w'.available p.sourceId).length }) := by
  rw [enqueue, if_neg (by simp [hblank]), DiskBuffer.enqueueStreamBatch_of_full hlen hfull]
  dsimp only
  rw [spillToOverflow, hw]
  dsimp only
  rw [hwrote]
  rfl

variable (p : StreamingDeliveryPipeline κ) (env : ConfirmEnv) (sequences : List Nat)

theorem prepareDrain_apply (env : PrepareEnv) :
    (p.prepareDrain env).2 = (p.prepareOps env).foldl apply p := by
  unfold prepareDrain prepareOps
  split
  · rfl
  · split <;> rfl

theorem prepareDrain_batch {env : PrepareEnv} {b : Batch} {q : StreamingDeliveryPipeline κ}
    (h : p.prepareDrain env = (.batch b, q)) : q = p := by
  unfold prepareDrain at h
  split at h
  · cases h
  · split at h
    · cases h
    · cases h
      rfl

theorem confirmDrained_apply :
    (p.confirmDrained env sequences).2 =
      (p.confirmOps env sequences).foldl apply (p.remove env.deleteFault sequences) := by
  unfold confirmDrained confirmOps remove
  split
  · rfl
  · dsimp only
    split <;> rfl

theorem applyDrainOutcome_apply (outcome : CappedShipOutcome) (sequences : List Nat) :
    (p.applyDrainOutcome env outcome sequences).2 =
      (p.outcomeOps env outcome sequences).foldl apply p := by
  cases outcome with
  | deferred reason => rfl
  | delivered count | droppedOversized count | rejectedAdjudicated accepted rejected =>
    exact confirmDrained_apply { p with journal := p.journal.ship sequences _ } env _

end StreamingDeliveryPipeline

end EdgePacer.Streaming
