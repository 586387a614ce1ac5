import EdgePacer.Streaming.Pipeline

/-!
# The streaming actor

One task owns the pipeline of a streaming source. Producers send it commands through a channel; its
loop takes a command, notices that the ship in flight has completed, or runs on a timer tick,
whichever the scheduler picks. When the channel is closed and empty, or a line has been blocked for
too long after it was closed, the loop ends and the shutdown sequence runs: settle the ship in
flight, retry the blocked line, take what is left in the channel, drain the buffer.

A run is a list of events, one for each turn of the loop and of the shutdown sequence's own loops;
each carries what the environment decides. An event that is not enabled changes nothing, so every
list of events is a run. The channel's capacity only delays producers and is left out.

`ops` lists what an event does to the pipeline (`step_pipeline`), so that a property of the
pipeline alone is proved once for each elementary operation.
-/

namespace EdgePacer.Streaming

open Lib Delivery StreamingDeliveryPipeline

universe u

/-- Commands a producer can send to the actor. -/
inductive StreamCommand (κ : Type u) where
  | enqueue (line : StreamLine)
  | setCheckpoint (checkpoint : κ)
  | getCheckpoint

/-- Where the actor's task is: in its loop, or in one of the stages of the shutdown sequence. -/
inductive Phase where
  | running
  | settling
  | remaining
  | draining
  | stopped
  deriving DecidableEq

/-- How long a blocked line may gate intake after every handle is gone, in milliseconds. -/
def WEDGED_SHUTDOWN_GRACE : Nat := 2000

/-- The task that owns a pipeline. -/
structure Actor (κ : Type u) where
  pipeline : StreamingDeliveryPipeline κ
  /-- The commands in the channel, the oldest first. -/
  queue : List (StreamCommand κ)
  /-- Whether all handles are gone. -/
  closed : Bool
  /-- The batch of the ship in flight. -/
  inflight : Option Batch
  /-- A line that neither the buffer nor overflow had room for. -/
  blocked : Option StreamLine
  wedgedSince : Option Nat
  /-- The answers to checkpoint queries, in order. -/
  replies : List (Option κ)
  phase : Phase

/-- The timer tick's clock readings and environment. -/
structure TickEnv where
  (now elapsedAt : Nat)
  retry : EnqueueEnv
  prepare : PrepareEnv

/-- What decides one turn of the shutdown drain: whether the emptiness check fails, the answers to
the ship (`none` when the deadline has passed or passes during it), and the faults. -/
structure ShutdownEnv where
  emptyFault : Bool
  transport : Option Transport
  prepare : PrepareEnv
  confirm : ConfirmEnv
  save : SaveEnv

/-- What the actor selects on. -/
inductive Event (κ : Type u) where
  | send (command : StreamCommand κ)
  | close
  | recv (env : EnqueueEnv)
  | shipped (transport : Transport) (confirm : ConfirmEnv) (retry : EnqueueEnv)
  | tick (env : TickEnv)
  /-- Wait for the ship in flight; `none` when the wait times out. -/
  | settle (transport : Option Transport) (confirm : ConfirmEnv) (retry : EnqueueEnv)
  | takeRemaining (env : EnqueueEnv)
  | shutdownDrain (env : ShutdownEnv)
  /-- Another source uses the shared overflow store. -/
  | overflowElsewhere (op : OverflowOp)

namespace Actor

variable {κ : Type u}

/-- The actor as it is spawned. -/
def spawn (pipeline : StreamingDeliveryPipeline κ) : Actor κ where
  pipeline := pipeline
  queue := []
  closed := false
  inflight := none
  blocked := none
  wedgedSince := none
  replies := []
  phase := .running

/-! ## Steps -/

variable (a : Actor κ) (env : EnqueueEnv)

/-- Carry out a command. The answer is a line the pipeline did not take. -/
def handle : StreamCommand κ → Option StreamLine × Actor κ
  | .enqueue line =>
      let taken := a.pipeline.enqueue env line
      (if taken.1 then none else some line, { a with pipeline := taken.2 })
  | .setCheckpoint checkpoint =>
      (none, { a with pipeline := a.pipeline.setPendingCheckpoint checkpoint })
  | .getCheckpoint => (none, { a with replies := a.replies ++ [a.pipeline.resumeCheckpoint] })

/-- Re-attempt the blocked line once. -/
def retryBlocked : Actor κ :=
  match a.blocked with
  | none => a
  | some line =>
      let taken := a.pipeline.enqueue env line
      { a with pipeline := taken.2, blocked := if taken.1 then none else some line }

/-- Take the next command; a closed and empty channel ends the loop. -/
def recv : Actor κ :=
  if a.blocked.isSome then a
  else
    match a.queue with
    | [] => if a.closed then { a with phase := .settling } else a
    | command :: queue =>
        let handled := { a with queue := queue }.handle env command
        { handled.2 with blocked := handled.1 }

/-- The ship in flight is over: its outcome is applied, unless it was abandoned (`none`). -/
def complete (transport : Option Transport) (confirm : ConfirmEnv) : Actor κ :=
  match a.inflight, transport with
  | some b, some transport =>
      { a with
        inflight := none
        pipeline := (a.pipeline.applyDrainOutcome confirm (a.pipeline.ship transport b)
          b.sequences).2 }
  | _, _ => { a with inflight := none }

/-- The ship in flight has completed. -/
def shipped (transport : Transport) (confirm : ConfirmEnv) (retry : EnqueueEnv) : Actor κ :=
  if a.inflight.isSome then (a.complete (some transport) confirm).retryBlocked retry else a

/-- Start the next ship unless one is in flight. -/
def startShip (env : PrepareEnv) : Actor κ :=
  if a.inflight.isSome then a
  else
    match a.pipeline.prepareDrain env with
    | (.idle, p) => { a with pipeline := p }
    | (.batch b, p) => { a with pipeline := p, inflight := some b }

/-- Leave the loop when a line has been blocked for the grace period on a closed channel. -/
def checkWedged (now elapsedAt : Nat) : Actor κ :=
  if a.blocked.isSome && a.closed then
    let since := a.wedgedSince.getD now
    { a with
      wedgedSince := some since
      phase := if WEDGED_SHUTDOWN_GRACE ≤ elapsedAt - since then .settling else a.phase }
  else { a with wedgedSince := none }

def tick (env : TickEnv) : Actor κ :=
  ((a.retryBlocked env.retry).startShip env.prepare).checkWedged env.now env.elapsedAt

/-- First stage of the shutdown: apply the ship in flight if it settles in time, then retry the
blocked line. What is left in the channel is only taken when nothing is blocked. -/
def settle (transport : Option Transport) (confirm : ConfirmEnv) (retry : EnqueueEnv) : Actor κ :=
  let retried := (a.complete transport confirm).retryBlocked retry
  { retried with phase := if retried.blocked.isSome then .draining else .remaining }

/-- One turn of `drain_remaining_commands`: it stops at the first line that is not taken. -/
def takeRemaining : Actor κ :=
  match a.queue with
  | [] => { a with phase := .draining }
  | command :: queue =>
      let handled := { a with queue := queue }.handle env command
      if handled.1.isSome then { handled.2 with phase := .draining } else handled.2

/-- One turn of the shutdown drain's loop, or its end with a last attempt at the checkpoint. -/
def shutdownDrain (env : ShutdownEnv) : Actor κ :=
  let stop := { a with pipeline := a.pipeline.saveCheckpointIfPending env.save, phase := .stopped }
  if env.emptyFault = true ∨ a.pipeline.buffer.isEmpty = true then stop
  else
    match env.transport with
    | none => stop
    | some transport =>
        { a with pipeline := a.pipeline.drainCycle env.prepare transport env.confirm }

def step : Event κ → Actor κ
  | .send command => if a.closed then a else { a with queue := a.queue ++ [command] }
  | .close => { a with closed := true }
  | .recv env => if a.phase = .running then a.recv env else a
  | .shipped transport confirm retry =>
      if a.phase = .running then a.shipped transport confirm retry else a
  | .tick env => if a.phase = .running then a.tick env else a
  | .settle transport confirm retry =>
      if a.phase = .settling then a.settle transport confirm retry else a
  | .takeRemaining env => if a.phase = .remaining then a.takeRemaining env else a
  | .shutdownDrain env => if a.phase = .draining then a.shutdownDrain env else a
  | .overflowElsewhere op => { a with pipeline := a.pipeline.overflowElsewhere op }

/-! ## What an undisturbed turn of the loop does -/

theorem recv_enqueue {a : Actor κ} {env : EnqueueEnv} {line : StreamLine}
    {queue : List (StreamCommand κ)} {q : StreamingDeliveryPipeline κ} (hb : a.blocked = none)
    (hq : a.queue = .enqueue line :: queue) (h : a.pipeline.enqueue env line = (true, q)) :
    a.recv env = { a with pipeline := q, queue := queue } := by
  cases a
  subst hb hq
  simp [recv, handle, h]

variable {b : Batch} (a : Actor κ) (env : EnqueueEnv) (transport : Option Transport)
  (confirm : ConfirmEnv)

/-! ## What an event does to the pipeline -/

/-- The retry of a blocked line, as pipeline operations. -/
def retryOps (blocked : Option StreamLine) (env : EnqueueEnv) : List (Op κ) :=
  match blocked with
  | none => []
  | some line => [.enqueue env line]

/-- A command, as pipeline operations. -/
def handleOps (env : EnqueueEnv) : StreamCommand κ → List (Op κ)
  | .enqueue line => [.enqueue env line]
  | .setCheckpoint checkpoint => [.setPendingCheckpoint checkpoint]
  | .getCheckpoint => []

/-- The next command in the channel, as pipeline operations. -/
def nextOps (env : EnqueueEnv) : List (Op κ) :=
  match a.queue with
  | [] => []
  | command :: _ => handleOps env command

/-- The completion of the ship in flight, as pipeline operations. -/
def completeOps (transport : Option Transport) (confirm : ConfirmEnv) : List (Op κ) :=
  match a.inflight, transport with
  | some b, some transport =>
      a.pipeline.outcomeOps confirm (a.pipeline.ship transport b) b.sequences
  | _, _ => []

/-- One turn of the shutdown drain, as pipeline operations. -/
def shutdownOps (env : ShutdownEnv) : List (Op κ) :=
  if env.emptyFault = true ∨ a.pipeline.buffer.isEmpty = true then
    [.saveCheckpointIfPending env.save]
  else
    match env.transport with
    | none => [.saveCheckpointIfPending env.save]
    | some transport =>
        match a.pipeline.prepareDrain env.prepare with
        | (.idle, _) => a.pipeline.prepareOps env.prepare
        | (.batch b, p) => p.outcomeOps env.confirm (p.ship transport b) b.sequences

/-- The pipeline operations of an event, in order. -/
def ops : Event κ → List (Op κ)
  | .send _ | .close => []
  | .recv env => if a.phase = .running ∧ a.blocked = none then a.nextOps env else []
  | .shipped transport confirm retry =>
      if a.phase = .running ∧ a.inflight.isSome = true then
        a.completeOps (some transport) confirm ++ retryOps a.blocked retry
      else []
  | .tick env =>
      if a.phase = .running then
        retryOps a.blocked env.retry ++
          (if a.inflight.isSome then []
          else (a.retryBlocked env.retry).pipeline.prepareOps env.prepare)
      else []
  | .settle transport confirm retry =>
      if a.phase = .settling then
        a.completeOps transport confirm ++ retryOps a.blocked retry
      else []
  | .takeRemaining env => if a.phase = .remaining then a.nextOps env else []
  | .shutdownDrain env => if a.phase = .draining then a.shutdownOps env else []
  | .overflowElsewhere op => [.overflowElsewhere op]

theorem handle_pipeline (command : StreamCommand κ) :
    (a.handle env command).2.pipeline = (handleOps env command).foldl apply a.pipeline := by
  cases command <;> rfl

theorem retryBlocked_pipeline :
    (a.retryBlocked env).pipeline = (retryOps a.blocked env).foldl apply a.pipeline := by
  unfold retryBlocked retryOps
  split <;> rfl

theorem complete_pipeline :
    (a.complete transport confirm).pipeline =
      (a.completeOps transport confirm).foldl apply a.pipeline := by
  unfold complete completeOps
  split
  · exact a.pipeline.applyDrainOutcome_apply confirm _ _
  · rfl

theorem complete_frame :
    (a.complete transport confirm).blocked = a.blocked ∧
      (a.complete transport confirm).queue = a.queue ∧
      (a.complete transport confirm).phase = a.phase := by
  unfold complete
  split <;> exact ⟨rfl, rfl, rfl⟩

theorem startShip_pipeline (env : PrepareEnv) :
    (a.startShip env).pipeline =
      (if a.inflight.isSome then [] else a.pipeline.prepareOps env).foldl
        apply a.pipeline := by
  unfold startShip
  split
  · rfl
  · rw [← prepareDrain_apply]
    split <;> simp_all

theorem checkWedged_pipeline (now elapsedAt : Nat) :
    (a.checkWedged now elapsedAt).pipeline = a.pipeline := by
  unfold checkWedged
  split <;> rfl

theorem retryBlocked_inflight : (a.retryBlocked env).inflight = a.inflight := by
  unfold retryBlocked
  split <;> rfl

theorem shutdownDrain_pipeline (env : ShutdownEnv) :
    (a.shutdownDrain env).pipeline = (a.shutdownOps env).foldl apply a.pipeline := by
  unfold shutdownDrain shutdownOps
  split
  · rfl
  · split
    · rfl
    · rw [drainCycle]
      cases hprep : a.pipeline.prepareDrain env.prepare with
      | mk prep p =>
        have hp := a.pipeline.prepareDrain_apply env.prepare
        rw [hprep] at hp
        cases prep with
        | idle => exact hp
        | batch b =>
          -- a batch was peeked, so preparing it changed nothing
          have hsame : p = a.pipeline := a.pipeline.prepareDrain_batch hprep
          rw [hsame]
          exact a.pipeline.applyDrainOutcome_apply env.confirm _ _

/-- **Every event is a sequence of pipeline operations.** -/
theorem step_pipeline (ev : Event κ) :
    (a.step ev).pipeline = (a.ops ev).foldl apply a.pipeline := by
  cases ev with
  | send command =>
    rw [step]
    split <;> rfl
  | close => rfl
  | recv env =>
    rw [step, ops]
    by_cases hphase : a.phase = .running
    · cases hb : a.blocked with
      | some line => simp [hb, recv]
      | none =>
        rw [if_pos hphase, if_pos ⟨hphase, rfl⟩, recv, nextOps, hb]
        simp only [Option.isSome_none, Bool.false_eq_true, if_false]
        split
        · split <;> rfl
        · exact handle_pipeline _ env _
    · rw [if_neg hphase, if_neg fun h => hphase h.1]
      rfl
  | shipped transport confirm retry =>
    rw [step, ops]
    by_cases hphase : a.phase = .running
    · by_cases hship : a.inflight.isSome = true
      · rw [if_pos hphase, if_pos ⟨hphase, hship⟩, shipped, if_pos hship, retryBlocked_pipeline,
          complete_pipeline, (a.complete_frame _ _).1, List.foldl_append]
      · rw [if_pos hphase, if_neg fun h => hship h.2, shipped, if_neg hship]
        rfl
    · rw [if_neg hphase, if_neg fun h => hphase h.1]
      rfl
  | tick env =>
    rw [step, ops]
    split
    · rw [tick, checkWedged_pipeline, startShip_pipeline, retryBlocked_pipeline,
        retryBlocked_inflight, List.foldl_append]
    · rfl
  | settle transport confirm retry =>
    rw [step, ops]
    split
    · rw [settle]
      rw [retryBlocked_pipeline, complete_pipeline, (a.complete_frame _ _).1, List.foldl_append]
    · rfl
  | takeRemaining env =>
    rw [step, ops]
    split
    · rw [takeRemaining, nextOps]
      split
      · rfl
      · dsimp only
        split <;> exact handle_pipeline _ env _
    · rfl
  | shutdownDrain env =>
    rw [step, ops]
    split
    · exact a.shutdownDrain_pipeline env
    · rfl
  | overflowElsewhere op => rfl

end Actor

end EdgePacer.Streaming
